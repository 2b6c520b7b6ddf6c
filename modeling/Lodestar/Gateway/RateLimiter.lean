import Mathlib

/-!
# The rate limiter

`redisRateLimiter` of `pkg/plugins/gateway/ratelimiter/redis.go` over any Redis (`RedisService`) whose
keys have a value and may expire.  A key has the number of the window in it, modulo 64, and expires one window length
after it was last added to.  Times are in nanoseconds, the window length in seconds.

The limiter is to be a table of counters that starts from 0 in every window.  `Follows` ties the keys
in Redis to the amounts that were added so far, and `Follows.get` says that a read gives the sum of the
amounts of the present window: the slot numbers repeat, but only after the keys have expired.
`Counts` is the same for one window, as a table of counters.
-/

namespace Lodestar.Gateway

open List Function

/-! ### Redis -/

/-- The value of a key, and the time at which the key expires. -/
structure RedisEntry where
  value : ℤ
  expires : Option ℕ := none
  deriving DecidableEq

/-- What is kept under the keys. -/
abbrev Redis := String → Option RedisEntry

namespace Redis

def empty : Redis := fun _ => none

variable (r : Redis) (now : ℕ) (key : String)

def live : Option RedisEntry :=
  (r key).filter fun entry => entry.expires.all fun t => now < t

/-- `GET` of a number; a missing key is 0. -/
def get : ℤ := ((r.live now key).map RedisEntry.value).getD 0

/-- `INCRBY`: the time to live stays. -/
def incrBy (n : ℤ) : Redis :=
  update r key (some ⟨r.get now key + n, (r.live now key).bind RedisEntry.expires⟩)

def expire (ttl : ℕ) : Redis :=
  match r.live now key with
  | none => r
  | some entry => update r key (some { entry with expires := some (now + ttl) })

variable {r now key} {v : ℤ} {t : ℕ}

lemma live_none (h : r key = none) : r.live now key = none := by
  simp [live, h]

lemma live_some (h : r key = some ⟨v, some t⟩) :
    r.live now key = if now < t then some ⟨v, some t⟩ else none := by
  simp [live, h, Option.filter]

lemma live_incrBy (n : ℤ) : (r.incrBy now key n).live now key =
    some ⟨r.get now key + n, (r.live now key).bind RedisEntry.expires⟩ := by
  have hlive : ((r.live now key).bind RedisEntry.expires).all (fun t => now < t) = true := by
    cases h : r.live now key with
    | none => rfl
    | some entry => exact (Option.filter_eq_some_iff.mp h).2
  unfold incrBy live at *
  rw [update_self]
  exact Option.filter_eq_some_iff.mpr ⟨rfl, hlive⟩

lemma incrBy_expire (n : ℤ) (ttl : ℕ) : (r.incrBy now key n).expire now key ttl =
    update r key (some ⟨r.get now key + n, some (now + ttl)⟩) := by
  unfold expire
  rw [live_incrBy]
  exact update_idem _ _ _

end Redis

/-- A Redis as the limiter sees it: its calls, and what they do to what is kept under the keys. -/
class RedisService (R : Type) where
  empty : R
  get : R → ℕ → String → ℤ
  incrBy : R → ℕ → String → ℤ → R
  expire : R → ℕ → String → ℕ → R
  entries : R → Redis
  entries_empty : entries empty = .empty
  get_eq : ∀ r now key, get r now key = (entries r).get now key
  entries_incrBy : ∀ r now key n, entries (incrBy r now key n) = (entries r).incrBy now key n
  entries_expire : ∀ r now key ttl, entries (expire r now key ttl) = (entries r).expire now key ttl

instance : RedisService Redis where
  empty := .empty
  get := Redis.get
  incrBy := Redis.incrBy
  expire := Redis.expire
  entries := id
  entries_empty := rfl
  get_eq := fun _ _ _ => rfl
  entries_incrBy := fun _ _ _ _ => rfl
  entries_expire := fun _ _ _ _ => rfl

open RedisService (entries)

/-! ### The limiter -/

/-- `redisRateLimiter`, with the window length that the constructor lets pass. -/
structure RateLimiter where
  name : String
  windowSize : ℕ
  pos : 0 < windowSize

namespace RateLimiter

@[irreducible] def second : ℕ := 10 ^ 9

lemma second_pos : 0 < second := by
  unfold second
  positivity

/-- `NewRedisAccountRateLimiter`, for a length of whole seconds. -/
def newRedisAccountRateLimiter (name : String) (windowSize : ℕ) : RateLimiter where
  name := name
  windowSize := max windowSize 1
  pos := by omega

def binSize : ℕ := 64

variable {R : Type} [RedisService R] (rl : RateLimiter) (r : R) (now : ℕ) (key : String)

def window : ℕ := now / second / rl.windowSize

def genKey : String :=
  rl.name ++ ":" ++ key ++ ":" ++ toString (rl.window now % binSize)

def get : ℤ := RedisService.get r now (rl.genKey now key)

/-- `Incr`, with `incrAndExpire`: Redis afterwards; the answer is the new value. -/
def incr (val : ℤ) : R :=
  RedisService.expire (RedisService.incrBy r now (rl.genKey now key) val) now (rl.genKey now key)
    (rl.windowSize * second)

/-- The answer of `Incr`. -/
def incrAnswer (val : ℤ) : ℤ :=
  RedisService.get (RedisService.incrBy r now (rl.genKey now key) val) now (rl.genKey now key)

lemma entries_incr (val : ℤ) : entries (rl.incr r now key val) = update (entries r)
    (rl.genKey now key) (some ⟨rl.get r now key + val, some (now + rl.windowSize * second)⟩) := by
  unfold incr get
  rw [RedisService.entries_expire, RedisService.entries_incrBy, RedisService.get_eq]
  exact Redis.incrBy_expire val _

/-! ### Keys -/

lemma append_colon_inj {s s' d d' : List Char} (hd : ':' ∉ d) (hd' : ':' ∉ d')
    (h : s ++ ':' :: d = s' ++ ':' :: d') : s = s' ∧ d = d' := by
  have htake : ∀ {s d : List Char}, ':' ∉ d →
      (s ++ ':' :: d).reverse.takeWhile (· ≠ ':') = d.reverse := by
    intro s d hd
    rw [reverse_append, reverse_cons, append_assoc, takeWhile_append_of_pos]
    · simp
    · intro c hc
      have hne : c ≠ ':' := fun h => hd (h ▸ mem_reverse.mp hc)
      simpa using hne
  have hsame : d = d' := by
    apply reverse_injective
    rw [← htake hd, ← htake hd', h]
  rw [hsame] at h
  exact ⟨append_cancel_right h, hsame⟩

lemma colon_notMem_toString {n : ℕ} (h : n < binSize) : ':' ∉ (toString n).toList := by
  have hall : ∀ n < 64, ':' ∉ (toString n).toList := by decide +kernel
  exact hall n h

variable {rl}

lemma genKey_inj {now now' : ℕ} {key key' : String} (h : rl.genKey now key = rl.genKey now' key') :
    key = key' ∧ rl.window now % binSize = rl.window now' % binSize := by
  have hlist := congrArg String.toList h
  unfold genKey at hlist
  obtain ⟨hkey, hslot⟩ := append_colon_inj (colon_notMem_toString (Nat.mod_lt _ (by decide)))
    (colon_notMem_toString (Nat.mod_lt _ (by decide))) (by simpa using hlist)
  refine ⟨?_, Nat.repr_inj.mp (String.toList_injective hslot)⟩
  exact String.toList_injective (by simpa using hkey)

lemma genKey_congr {now now' : ℕ} (h : rl.window now = rl.window now') (key : String) :
    rl.genKey now key = rl.genKey now' key := by
  unfold genKey
  rw [h]

/-! ### Windows -/

variable (rl) in
lemma window_mono {now now' : ℕ} (h : now ≤ now') : rl.window now ≤ rl.window now' :=
  Nat.div_le_div_right (Nat.div_le_div_right h)

lemma window_add (now : ℕ) : rl.window (now + rl.windowSize * second) = rl.window now + 1 := by
  unfold window
  rw [Nat.add_mul_div_right _ _ second_pos, Nat.add_div_right _ rl.pos]

lemma window_eq_of_live {last now : ℕ} (hle : last ≤ now) (hlive : now < last + rl.windowSize * second)
    (hslot : rl.window last % binSize = rl.window now % binSize) : rl.window last = rl.window now := by
  have hmono := rl.window_mono hle
  have hnext := rl.window_mono hlive.le
  rw [window_add] at hnext
  unfold binSize at hslot
  omega

variable (rl) in
lemma window_lt_of_expired {last now : ℕ} (h : last + rl.windowSize * second ≤ now) :
    rl.window last < rl.window now := by
  have hnext := rl.window_mono h
  rw [window_add] at hnext
  omega

/-! ### What was added -/

structure Added where
  now : ℕ
  key : String
  val : ℤ

variable (rl) in
def total (log : List Added) (key : String) (w : ℕ) : ℤ :=
  ((log.filter fun a => a.key = key ∧ rl.window a.now = w).map Added.val).sum

lemma total_cons (a : Added) (log : List Added) (key : String) (w : ℕ) : rl.total (a :: log) key w =
      (if a.key = key ∧ rl.window a.now = w then a.val else 0) + rl.total log key w := by
  unfold total
  by_cases h : a.key = key ∧ rl.window a.now = w
  · simp [h]
  · simp [h]

lemma total_eq_zero {log : List Added} {key : String} {w : ℕ}
    (h : ∀ a ∈ log, a.key = key → rl.window a.now ≠ w) : rl.total log key w = 0 := by
  unfold total
  rw [filter_eq_nil_iff.mpr]
  · rfl
  · intro a ha
    simpa using h a ha

variable (rl) in
/-- Redis has followed the log: a key has the total of the window in which it was last added to, and
expires one window length after that. -/
structure Follows (r : R) (log : List Added) (clock : ℕ) : Prop where
  past : ∀ a ∈ log, a.now ≤ clock
  absent : ∀ K, entries r K = none → ∀ a ∈ log, rl.genKey a.now a.key ≠ K
  present : ∀ K entry, entries r K = some entry → ∃ last ∈ log, rl.genKey last.now last.key = K ∧
    entry = ⟨rl.total log last.key (rl.window last.now), some (last.now + rl.windowSize * second)⟩ ∧
    ∀ a ∈ log, rl.genKey a.now a.key = K → a.now ≤ last.now

lemma follows_empty (clock : ℕ) : rl.Follows (RedisService.empty : R) [] clock where
  past := by simp
  absent := by simp
  present K entry h := by
    rw [RedisService.entries_empty] at h
    cases h

variable {r : R} {log : List Added} {clock now : ℕ}

section

variable (h : rl.Follows r log clock) (hnow : clock ≤ now)
include h hnow

/-- **A read** gives what was added in the present window. -/
lemma Follows.get (key : String) : rl.get r now key = rl.total log key (rl.window now) := by
  rw [RateLimiter.get, RedisService.get_eq, Redis.get]
  cases hK : entries r (rl.genKey now key) with
  | none =>
    have hzero : rl.total log key (rl.window now) = 0 := by
      apply total_eq_zero
      intro a ha hkey hw
      apply h.absent _ hK a ha
      rw [hkey]
      exact genKey_congr hw key
    rw [Redis.live_none hK, hzero]
    simp
  | some entry =>
    obtain ⟨last, hlast, hkey, rfl, hmax⟩ := h.present _ _ hK
    obtain ⟨hkey', hslot⟩ := genKey_inj hkey
    have hle : last.now ≤ now := (h.past last hlast).trans hnow
    rw [Redis.live_some hK]
    by_cases hlive : now < last.now + rl.windowSize * second
    · rw [if_pos hlive, ← window_eq_of_live hle hlive hslot, ← hkey']
      simp
    · have hw := rl.window_lt_of_expired (not_lt.mp hlive)
      have hzero : rl.total log key (rl.window now) = 0 := by
        apply total_eq_zero
        intro a ha hak haw
        have hge : a.now ≤ last.now := hmax a ha (by rw [hak]; exact genKey_congr haw key)
        have hmono := rl.window_mono hge
        omega
      rw [if_neg hlive, hzero]
      simp

lemma Follows.incr (key : String) (val : ℤ) :
    rl.Follows (rl.incr r now key val) (⟨now, key, val⟩ :: log) now := by
  have hget := h.get hnow key
  have hother : ∀ a : Added, rl.genKey a.now a.key ≠ rl.genKey now key →
      rl.total (⟨now, key, val⟩ :: log) a.key (rl.window a.now) =
        rl.total log a.key (rl.window a.now) := by
    intro a ha
    rw [total_cons, if_neg, zero_add]
    rintro ⟨hkey, hw⟩
    apply ha
    rw [← show key = a.key from hkey]
    exact genKey_congr hw.symm key
  constructor
  · intro a ha
    rcases mem_cons.mp ha with rfl | ha
    · exact le_rfl
    · exact (h.past a ha).trans hnow
  · intro K hK a ha
    rw [entries_incr] at hK
    by_cases hKK : K = rl.genKey now key
    · rw [hKK, update_self] at hK
      cases hK
    · rw [update_of_ne hKK] at hK
      rcases mem_cons.mp ha with rfl | ha
      · exact Ne.symm hKK
      · exact h.absent K hK a ha
  · intro K entry hK
    rw [entries_incr] at hK
    by_cases hKK : K = rl.genKey now key
    · -- the key that was added to
      subst hKK
      rw [update_self] at hK
      refine ⟨⟨now, key, val⟩, mem_cons_self, rfl, ?_, ?_⟩
      · rw [← Option.some.inj hK, total_cons, if_pos ⟨rfl, rfl⟩, hget, add_comm]
      · intro a ha _
        rcases mem_cons.mp ha with rfl | ha
        · exact le_rfl
        · exact (h.past a ha).trans hnow
    · rw [update_of_ne hKK] at hK
      obtain ⟨last, hlast, hkey, hentry, hmax⟩ := h.present K entry hK
      refine ⟨last, mem_cons_of_mem _ hlast, hkey, ?_, ?_⟩
      · rw [hentry, hother last (hkey ▸ hKK)]
      · intro a ha haK
        rcases mem_cons.mp ha with rfl | ha
        · exact absurd haK (Ne.symm hKK)
        · exact hmax a ha haK

lemma Follows.later : rl.Follows r log now :=
  ⟨fun a ha => (h.past a ha).trans hnow, h.absent, h.present⟩

end

/-! ### One window -/

variable (rl) in
/-- In the window `w` the limiter is a table of counters. -/
def Counts (r : R) (clock w : ℕ) (counters : String → ℤ) : Prop :=
  ∃ log, rl.Follows r log clock ∧ ∀ key, counters key = rl.total log key w

variable {w : ℕ} {counters : String → ℤ}

lemma Follows.counts (h : rl.Follows r log clock) (hw : ∀ a ∈ log, rl.window a.now < w) :
    rl.Counts r clock w fun _ => 0 := by
  refine ⟨log, h, fun key => (total_eq_zero ?_).symm⟩
  intro a ha _ heq
  have := hw a ha
  omega

section

variable (h : rl.Counts r clock w counters) (hnow : clock ≤ now)
include h hnow

lemma Counts.get (hw : rl.window now = w) (key : String) : rl.get r now key = counters key := by
  obtain ⟨log, hlog, hcounters⟩ := h
  rw [hlog.get hnow, hcounters, hw]

lemma Counts.incr (hw : rl.window now = w)
    (key : String) (val : ℤ) : rl.Counts (rl.incr r now key val) now w
      (update counters key (counters key + val)) := by
  obtain ⟨log, hlog, hcounters⟩ := h
  refine ⟨_, hlog.incr hnow key val, fun key' => ?_⟩
  rw [total_cons, ← hcounters]
  by_cases hkey : key' = key
  · subst hkey
    rw [update_self, if_pos ⟨rfl, hw⟩, add_comm]
  · rw [update_of_ne hkey, if_neg fun hboth => hkey hboth.1.symm, zero_add]

lemma Counts.later : rl.Counts r now w counters := by
  obtain ⟨log, hlog, hcounters⟩ := h
  exact ⟨log, hlog.later hnow, hcounters⟩

end

/-! ### Whole histories -/

/-- A call, made some time after the one before it. -/
inductive Call where
  | get (after : ℕ) (key : String)
  | incr (after : ℕ) (key : String) (val : ℤ)

variable (rl) in
/-- What the reads of a history answer. -/
def answers (r : R) (clock : ℕ) : List Call → List ℤ
  | [] => []
  | .get after key :: calls =>
    rl.get r (clock + after) key :: answers r (clock + after) calls
  | .incr after key val :: calls => answers (rl.incr r (clock + after) key val) (clock + after) calls

variable (rl) in
/-- What they are to answer: the amounts of the window, added up. -/
def windowTotals (log : List Added) (clock : ℕ) : List Call → List ℤ
  | [] => []
  | .get after key :: calls =>
    rl.total log key (rl.window (clock + after)) :: windowTotals log (clock + after) calls
  | .incr after key val :: calls =>
    windowTotals (⟨clock + after, key, val⟩ :: log) (clock + after) calls

lemma Follows.answers (h : rl.Follows r log clock) (calls : List Call) :
    rl.answers r clock calls = rl.windowTotals log clock calls := by
  induction calls generalizing r log clock with
  | nil => rfl
  | cons call calls ih =>
    have hnow : ∀ after, clock ≤ clock + after := fun after => Nat.le_add_right _ _
    cases call with
    | get after key =>
      rw [RateLimiter.answers, windowTotals, h.get (hnow after), ih (h.later (hnow after))]
    | incr after key val =>
      rw [RateLimiter.answers, windowTotals, ih (h.incr (hnow after) key val)]

/-- **Every read answers the sum of its window**, in every history from an empty Redis. -/
theorem reads_window_total (rl : RateLimiter) (start : ℕ) (calls : List Call) :
    rl.answers (RedisService.empty : R) start calls = rl.windowTotals [] start calls :=
  (follows_empty start).answers calls

end RateLimiter
end Lodestar.Gateway
