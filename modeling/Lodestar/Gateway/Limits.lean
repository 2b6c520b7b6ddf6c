import Lodestar.Gateway.Process
import Lodestar.Gateway.RateLimiter
import Lodestar.Lib.Census

/-!
# The limits of a user

`checkLimits` of `gateway_ratelimit.go` on the counters of the rate limiter, inside one window.

* Any number of checks of one user run at the same time (`Checks`).  A check reads the counter of
  requests and increments it in another call, so checks that have read the counter and not
  incremented it yet can be one too many; `admitted_le_run` bounds the admitted checks by the limit
  where a read counts them in.
* Requests and completed responses follow one another (`Usage`).  The tokens of a response are
  charged under the printed record of the user, but the check reads the counter under the user's
  name; `enforced_iff` says when a further request is rejected all the same.
* The tokens are checked after the request is counted; `rejected_unchanged_iff` says when a rejected
  request leaves the counters as they were.
-/

namespace Lodestar.Gateway

open Function (update update_self update_of_ne)

/-! ### Keys -/

def rpmKey (username : String) : String := username ++ "_RPM_CURRENT"

/-- The key of the tokens, for what is printed in front. -/
def tpmKey (printed : String) : String := printed ++ "_TPM_CURRENT"

/-- A user printed with `%v`. -/
def User.print (user : User) : String :=
  "\x7b" ++ user.name ++ " " ++ toString user.rpm ++ " " ++ toString user.tpm ++ "\x7d"

def User.rpmLimit (user : User) : ℤ := if user.rpm = 0 then 100 else user.rpm

def User.tpmLimit (user : User) : ℤ :=
  if user.tpm = 0 then (user.rpmLimit * 1000).bmod (2 ^ 64) else user.tpm

lemma tpmKey_injective : Function.Injective tpmKey := by
  intro a b h
  simpa [tpmKey] using h

lemma rpmKey_ne_tpmKey (a b : String) : rpmKey a ≠ tpmKey b := by
  intro h
  have hlist := congrArg String.toList h
  unfold rpmKey tpmKey at hlist
  have hrev := congrArg (fun l => l.reverse.take 12) hlist
  simp at hrev

variable {R : Type} [RedisService R]

/-- What Redis answers to a check of which all calls are made at one time. -/
def redisAnswers (rl : RateLimiter) (r : R) (now : ℕ) (user : User) : HeadersEnv where
  getUser := .ok user
  getRPM := some (rl.get r now (rpmKey user.name))
  incrRPM := some (rl.incrAnswer r now (rpmKey user.name) 1)
  getTPM := some (rl.get (rl.incr r now (rpmKey user.name) 1) now (tpmKey user.name))

/-- The replies of `checkLimits`. -/
inductive Refusal where
  | getRPM
  | exceededRPM
  | incrRPM
  | getTPM
  | exceededTPM

def Refusal.reply (user : User) : Refusal → ProcessingResponse
  | .getRPM => generateErrorResponse 500 (errorHeader "x-error-rpm-exceeded" "true")
      ("fail to get RPM for user: " ++ user.name)
  | .exceededRPM => generateErrorResponse 429 (errorHeader "x-error-rpm-exceeded" "true")
      ("user: " ++ user.name ++ " has exceeded RPM: " ++ toString user.rpmLimit)
  | .incrRPM => generateErrorResponse 500 (errorHeader "x-error-incr-rpm" "true")
      ("fail to increment RPM for user: " ++ user.name)
  | .getTPM => generateErrorResponse 500 (errorHeader "x-error-tpm-exceeded" "true")
      ("fail to get TPM for user: " ++ user.name)
  | .exceededTPM => generateErrorResponse 429 (errorHeader "x-error-tpm-exceeded" "true")
      ("user: " ++ user.name ++ " has exceeded TPM: " ++ toString user.tpmLimit)

lemma checkLimits_redisAnswers (rl : RateLimiter) (r : R) (now : ℕ) (user : User) :
    checkLimits (redisAnswers rl r now user) user =
      if user.rpmLimit ≤ rl.get r now (rpmKey user.name) then
        ([], .error (Refusal.exceededRPM.reply user))
      else if user.tpmLimit ≤
          rl.get (rl.incr r now (rpmKey user.name) 1) now (tpmKey user.name) then
        ([.incrRPM user.name], .error (Refusal.exceededTPM.reply user))
      else ([.incrRPM user.name], .ok (rl.incrAnswer r now (rpmKey user.name) 1)) := rfl

/-! ### Concurrent checks of one user -/

/-- The places of a check: in front of each call on Redis, and after the last. -/
inductive CheckPc where
  | idle
  | checkRPM
  | incrRPM
  | checkTPM (rpm : ℤ)
  | admitted (rpm : ℤ)
  | rejected (resp : ProcessingResponse)
  deriving DecidableEq

namespace CheckPc

/-- The check has read the counter and not incremented it yet. -/
def pending : CheckPc → Bool
  | .incrRPM => true
  | _ => false

def counted : CheckPc → Bool
  | .checkTPM _ | .admitted _ => true
  | _ => false

def isAdmitted : CheckPc → Bool
  | .admitted _ => true
  | _ => false

end CheckPc

structure Checks (R : Type) (τ : Type*) where
  redis : R
  clock : ℕ
  pc : τ → CheckPc := fun _ => .idle

namespace Checks

variable {τ : Type*} [DecidableEq τ]

/-- What can happen at a time: a check begins; a check makes its next call, which may fail, and an
increment that fails may have taken effect; something is added under another key. -/
inductive Act (τ : Type*) where
  | begin (t : τ)
  | next (t : τ)
  | fail (t : τ) (applied : Bool)
  | add (key : String) (val : ℤ)

structure Event (τ : Type*) where
  now : ℕ
  act : Act τ

variable (rl : RateLimiter) (user : User) (w : ℕ) (s : Checks R τ) (now : ℕ) (t : τ)

def goto (p : CheckPc) : Checks R τ := { s with pc := update s.pc t p }

def next : Checks R τ :=
  match s.pc t with
  | .checkRPM =>
    if rl.get s.redis now (rpmKey user.name) ≥ user.rpmLimit then
      s.goto t (.rejected (Refusal.exceededRPM.reply user))
    else s.goto t .incrRPM
  | .incrRPM =>
    { s with redis := rl.incr s.redis now (rpmKey user.name) 1 }.goto t
      (.checkTPM (rl.incrAnswer s.redis now (rpmKey user.name) 1))
  | .checkTPM rpm =>
    if rl.get s.redis now (tpmKey user.name) ≥ user.tpmLimit then
      s.goto t (.rejected (Refusal.exceededTPM.reply user))
    else s.goto t (.admitted rpm)
  | _ => s

def fail (applied : Bool) : Checks R τ :=
  match s.pc t with
  | .checkRPM => s.goto t (.rejected (Refusal.getRPM.reply user))
  | .incrRPM =>
    { s with redis := if applied then rl.incr s.redis now (rpmKey user.name) 1 else s.redis }.goto t
      (.rejected (Refusal.incrRPM.reply user))
  | .checkTPM _ => s.goto t (.rejected (Refusal.getTPM.reply user))
  | _ => s

def act : Act τ → Checks R τ
  | .begin t => if s.pc t = .idle then s.goto t .checkRPM else s
  | .next t => s.next rl user now t
  | .fail t applied => s.fail rl user now t applied
  | .add key val =>
    if key = rpmKey user.name then s else { s with redis := rl.incr s.redis now key val }

/-- An event in the window `w`; the clock does not go back. -/
def step (s : Checks R τ) (e : Event τ) : Checks R τ :=
  if s.clock ≤ e.now ∧ rl.window e.now = w then
    { s.act rl user e.now e.act with clock := e.now }
  else s

def start (redis : R) (clock : ℕ) : Checks R τ := { redis := redis, clock := clock }

/-- The checks of a window, from a Redis that has seen earlier windows. -/
def run (redis : R) (clock : ℕ) (es : List (Event τ)) : Checks R τ :=
  es.foldl (step rl user w) (start redis clock)

/-- The read of a check counts the checks in that are about to increment. -/
def Spaced (e : Event τ) : Prop :=
  ∀ t, e.act = .next t → s.pc t = .checkRPM →
    rl.get s.redis e.now (rpmKey user.name) + {u | (s.pc u).pending = true}.ncard < user.rpmLimit ∨
      user.rpmLimit ≤ rl.get s.redis e.now (rpmKey user.name)

/-- The checks that have incremented, and those that are about to, fit into the limit. -/
structure Inv (counters : String → ℤ) (n m : ℤ) : Prop where
  counts : rl.Counts s.redis s.clock w counters
  counted : Lib.Census (fun u => (s.pc u).counted = true) n
  pending : Lib.Census (fun u => (s.pc u).pending = true) m
  counter : n ≤ counters (rpmKey user.name)
  bound : counters (rpmKey user.name) + m ≤ max user.rpmLimit 0

variable {rl user w s now t} {counters : String → ℤ} {n m : ℤ}

lemma Inv.goto (h : Inv rl user w s counters n m) (hnow : s.clock ≤ now) {p : CheckPc}
    (hn : p.counted = true → (s.pc t).counted = true)
    (hm : p.pending = true → counters (rpmKey user.name) + m < max user.rpmLimit 0) :
    ∃ counters n m, Inv rl user w { s.goto t p with clock := now } counters n m := by
  refine ⟨_, _, _, h.counts.later hnow, h.counted.update t p, h.pending.update t p, ?_, ?_⟩
  · have hcounter := h.counter
    cases hp : p.counted with
    | true => simp [hn hp, hcounter]
    | false => cases (s.pc t).counted <;> simp <;> omega
  · have hbound := h.bound
    cases hp : p.pending with
    | true =>
      have hlt := hm hp
      cases (s.pc t).pending <;> simp <;> omega
    | false => cases (s.pc t).pending <;> simp <;> omega

attribute [local simp] CheckPc.counted

lemma Inv.incr (h : Inv rl user w s counters n m) (hnow : s.clock ≤ now)
    (hw : rl.window now = w) (hp : s.pc t = .incrRPM) {p : CheckPc} (hpending : p.pending = false) :
    ∃ counters n m, Inv rl user w
      { { s with redis := rl.incr s.redis now (rpmKey user.name) 1 }.goto t p with clock := now }
      counters n m := by
  refine ⟨_, _, _, h.counts.incr hnow hw _ 1, h.counted.update t p, h.pending.update t p, ?_, ?_⟩
  · have hcounter := h.counter
    rw [hp]
    cases p.counted <;> simp <;> omega
  · have hbound := h.bound
    rw [update_self, hp, hpending]
    simp only [CheckPc.pending, Bool.false_eq_true, if_false, if_true]
    omega

omit [DecidableEq τ] in
lemma Inv.later (h : Inv rl user w s counters n m) (hnow : s.clock ≤ now) :
    Inv rl user w { s with clock := now } counters n m :=
  ⟨h.counts.later hnow, h.counted, h.pending, h.counter, h.bound⟩

lemma Inv.next (h : Inv rl user w s counters n m) (hnow : s.clock ≤ now) (hw : rl.window now = w)
    (he : Spaced rl user s ⟨now, .next t⟩) :
    ∃ counters n m, Inv rl user w { s.next rl user now t with clock := now } counters n m := by
  unfold Checks.next
  cases hp : s.pc t with
  | checkRPM =>
    have hget := h.counts.get hnow hw (rpmKey user.name)
    dsimp only
    split
    · exact h.goto hnow (by simp) (by simp [CheckPc.pending])
    · rename_i hlow
      apply h.goto hnow (by simp)
      intro _
      -- there is room for this check and for those that are about to increment
      have hspace := he t rfl hp
      rw [h.pending.ncard.2] at hspace
      rw [hget] at hspace hlow
      omega
  | incrRPM => exact h.incr hnow hw hp rfl
  | checkTPM rpm =>
    dsimp only
    split
    · exact h.goto hnow (by simp) (by simp [CheckPc.pending])
    · exact h.goto hnow (by simp [hp]) (by simp [CheckPc.pending])
  | _ => exact ⟨_, _, _, h.later hnow⟩

lemma Inv.fail (h : Inv rl user w s counters n m) (hnow : s.clock ≤ now) (hw : rl.window now = w)
    (applied : Bool) :
    ∃ counters n m, Inv rl user w { s.fail rl user now t applied with clock := now } counters n m := by
  unfold Checks.fail
  cases hp : s.pc t with
  | incrRPM =>
    cases applied with
    | true => exact h.incr hnow hw hp rfl
    | false => exact h.goto hnow (by simp) (by simp [CheckPc.pending])
  | checkRPM | checkTPM => exact h.goto hnow (by simp) (by simp [CheckPc.pending])
  | _ => exact ⟨_, _, _, h.later hnow⟩

/-- **One event** keeps the bound, if a read counts the checks in that are about to increment. -/
lemma Inv.step (h : Inv rl user w s counters n m) {e : Event τ} (he : Spaced rl user s e) :
    ∃ counters n m, Inv rl user w (s.step rl user w e) counters n m := by
  obtain ⟨now, act⟩ := e
  unfold Checks.step
  split
  · rename_i htime
    obtain ⟨hnow, hw⟩ := htime
    cases act with
    | begin t =>
      unfold Checks.act
      dsimp only
      split
      · exact h.goto hnow (by simp) (by simp [CheckPc.pending])
      · exact ⟨_, _, _, h.later hnow⟩
    | next t => exact h.next hnow hw he
    | fail t applied => exact h.fail hnow hw applied
    | add key val =>
      unfold Checks.act
      dsimp only
      split
      · exact ⟨_, _, _, h.later hnow⟩
      · rename_i hkey
        refine ⟨_, n, m, h.counts.incr hnow hw key val, h.counted, h.pending, ?_, ?_⟩
        · rw [update_of_ne (Ne.symm hkey)]
          exact h.counter
        · rw [update_of_ne (Ne.symm hkey)]
          exact h.bound
  · exact ⟨_, _, _, h⟩

/-- **At most as many checks as the limit are admitted** in a window, whatever was added before it, if
at each read of the counter it and the checks that are about to increment it are below the limit, or
the counter is not. -/
theorem admitted_le_run {redis : R} {log : List RateLimiter.Added} {clock : ℕ}
    (hfollows : rl.Follows redis log clock) (hnew : ∀ a ∈ log, rl.window a.now < w)
    (es : List (Event τ)) (h : Lib.Along (step rl user w) (Spaced rl user) (start redis clock) es) :
    {t | ((run rl user w redis clock es).pc t).isAdmitted = true}.Finite ∧
      {t | ((run rl user w redis clock es).pc t).isAdmitted = true}.ncard ≤ user.rpmLimit.toNat := by
  have hinit : ∃ counters n m, Inv rl user w (start redis clock : Checks R τ) counters n m :=
    ⟨fun _ => 0, 0, 0, hfollows.counts hnew, Lib.Census.none.congr (by simp [start]),
      Lib.Census.none.congr (by simp [start, CheckPc.pending]), le_rfl, by simp⟩
  obtain ⟨counters, n, m, hinv⟩ := h.invariant
    (I := fun s => ∃ counters n m, Inv rl user w s counters n m) hinit
    (fun s e ⟨_, _, _, hi⟩ he => hi.step he)
  obtain ⟨hfin, hcard⟩ := hinv.counted.ncard
  have hsub : {t | ((run rl user w redis clock es).pc t).isAdmitted = true} ⊆
      {t | ((run rl user w redis clock es).pc t).counted = true} := by
    intro t ht
    change ((run rl user w redis clock es).pc t).isAdmitted = true at ht
    show ((run rl user w redis clock es).pc t).counted = true
    revert ht
    cases (run rl user w redis clock es).pc t <;> simp [CheckPc.isAdmitted]
  refine ⟨hfin.subset hsub, ?_⟩
  have hle := Set.ncard_le_ncard hsub hfin
  have hcounter := hinv.counter
  have hbound := hinv.bound
  have hpending := hinv.pending.nonneg
  have hcount : (({t | ((run rl user w redis clock es).pc t).counted = true}.ncard : ℕ) : ℤ) = n := hcard
  omega

/-- No check reads the counter while another one is about to increment it. -/
def apart [Fintype τ] (s : Checks R τ) (e : Event τ) : Bool :=
  match e.act with
  | .next t => decide (s.pc t = .checkRPM → ∀ u, (s.pc u).pending = false)
  | _ => true

omit [DecidableEq τ] in
lemma spaced_of_apart [Fintype τ] {e : Event τ} (h : s.apart e = true) : Spaced rl user s e := by
  intro t hact hp
  unfold apart at h
  rw [hact] at h
  have hempty : {u | (s.pc u).pending = true} = ∅ := by
    ext u
    simp [of_decide_eq_true h hp u]
  rw [hempty, Set.ncard_empty]
  omega

def minutes : RateLimiter := .newRedisAccountRateLimiter "aibrix" 60

def single : User := ⟨"u", 1, 0⟩

def oneByOne : List (Event Bool) :=
  [.begin false, .next false, .next false, .next false, .begin true, .next true].map (Event.mk 0)

theorem admitted_le_run_oneByOne :
    (run minutes single 0 Redis.empty 0 oneByOne).pc false = .admitted 1 ∧
    (run minutes single 0 Redis.empty 0 oneByOne).pc true =
      .rejected (Refusal.exceededRPM.reply single) ∧
    {t | ((run minutes single 0 Redis.empty 0 oneByOne).pc t).isAdmitted = true}.ncard ≤ 1 := by
  refine ⟨by decide +kernel, by decide +kernel, ?_⟩
  have hapart : Lib.Along (step minutes single 0) (fun s e => s.apart e = true)
      (start Redis.empty 0) oneByOne := by
    decide +kernel
  exact (admitted_le_run (RateLimiter.follows_empty 0) (by simp) oneByOne
    (hapart.imp fun _ _ => spaced_of_apart)).2

/-- Both checks read the counter before one of them increments it. -/
def together : List (Event Bool) :=
  [.begin false, .begin true, .next false, .next true, .next false, .next true, .next false,
    .next true].map (Event.mk 0)

theorem admitted_two_of_one : single.rpmLimit = 1 ∧
    (∀ t, ((run minutes single 0 Redis.empty 0 together).pc t).isAdmitted = true) ∧
    ¬ {t | ((run minutes single 0 Redis.empty 0 together).pc t).isAdmitted = true}.ncard ≤
      single.rpmLimit.toNat := by
  have hall : ∀ t, ((run minutes single 0 Redis.empty 0 together).pc t).isAdmitted = true := by
    decide +kernel
  refine ⟨rfl, hall, ?_⟩
  have huniv : {t | ((run minutes single 0 Redis.empty 0 together).pc t).isAdmitted = true} =
      Set.univ := Set.eq_univ_of_forall hall
  rw [huniv, Set.ncard_univ, Nat.card_eq_fintype_card]
  decide

end Checks

/-! ### Requests and responses of all users -/

/-- The calls on the rate limiter among the calls of the handlers. -/
def Op.onRedis (rl : RateLimiter) (now : ℕ) (r : R) : Op → R
  | .incrRPM username => rl.incr r now (rpmKey username) 1
  | .incrTPM user n => rl.incr r now (tpmKey user.print) n
  | _ => r

def Handled.accepted (h : Handled HeadersResult) : Bool :=
  match h.outcome with
  | .returned ⟨.requestHeaders _ _, _, _, _⟩ => true
  | _ => false

/-- Redis and the clock.  Two fields are there for the statements only: the tokens that completed
responses have reported, by the name of the user, and what was charged, by what is printed for the
user. -/
structure Usage (R : Type) where
  redis : R
  clock : ℕ
  reported : String → ℤ := fun _ => 0
  charged : String → ℤ := fun _ => 0

namespace Usage

/-- What can happen at a time: the headers of a request of a user come in, or the response to a request
of a user is completed, has reported its tokens and has been charged for. -/
inductive Act where
  | request (server : Server) (headers : List HeaderValue) (user : User)
  | complete (user : User) (tokens : ℤ) (charges : List ℤ)

structure Event where
  now : ℕ
  act : Act

variable (rl : RateLimiter) (w : ℕ) (s : Usage R) (now : ℕ)

/-- The handler of the headers, with what Redis answers at the time. -/
def handled (server : Server) (headers : List HeaderValue) (user : User) : Handled HeadersResult :=
  handleRequestHeaders server (redisAnswers rl s.redis now user) headers {}

def act : Act → Usage R
  | .request server headers user =>
    { s with redis := (s.handled rl now server headers user).ops.foldl (Op.onRedis rl now) s.redis }
  | .complete user tokens charges =>
    { s with
      redis := (charges.map (Op.incrTPM user)).foldl (Op.onRedis rl now) s.redis
      reported := update s.reported user.name (s.reported user.name + tokens)
      charged := update s.charged user.print (s.charged user.print + charges.sum) }

/-- An event in the window `w`; the clock does not go back. -/
def step (s : Usage R) (e : Event) : Usage R :=
  if s.clock ≤ e.now ∧ rl.window e.now = w then { s.act rl e.now e.act with clock := e.now } else s

/-- The events of a window, from a Redis that has seen earlier windows. -/
def run (redis : R) (clock : ℕ) (es : List Event) : Usage R :=
  es.foldl (step rl w) { redis := redis, clock := clock }

/-- The counter of tokens under a name has what was charged for the users that are printed so. -/
def Inv : Prop :=
  ∃ counters, rl.Counts s.redis s.clock w counters ∧
    ∀ printed, counters (tpmKey printed) = s.charged printed

variable {rl w s now}

lemma counts_charges {r : R} {clock : ℕ} {counters : String → ℤ}
    (h : rl.Counts r clock w counters) (hnow : clock ≤ now) (hw : rl.window now = w) (user : User)
    (charges : List ℤ) : rl.Counts ((charges.map (Op.incrTPM user)).foldl (Op.onRedis rl now) r) now w
      (update counters (tpmKey user.print) (counters (tpmKey user.print) + charges.sum)) := by
  induction charges generalizing r clock counters with
  | nil =>
    simp only [List.sum_nil, add_zero, Function.update_eq_self]
    exact h.later hnow
  | cons n charges ih =>
    have hrest := ih (h.incr hnow hw (tpmKey user.print) n) le_rfl
    rw [update_self, Function.update_idem, add_assoc] at hrest
    exact hrest

/-- The headers name a user, and no strategy or one that is registered. -/
structure Limited (server : Server) (headers : List HeaderValue) : Prop where
  strategy : (getRoutingStrategy server headers).2 = true →
    (validate server (getRoutingStrategy server headers).1).2 = true
  user : getUsername headers ≠ ""

variable (rl s now) in
lemma handled_of_limited {server : Server} {headers : List HeaderValue}
    (h : Limited server headers) (user : User) :
    ((s.handled rl now server headers user).ops, (s.handled rl now server headers user).accepted) =
      if user.rpmLimit ≤ rl.get s.redis now (rpmKey user.name) then ([], false)
      else if user.tpmLimit ≤
          rl.get (rl.incr s.redis now (rpmKey user.name) 1) now (tpmKey user.name) then
        ([.incrRPM user.name], false)
      else ([.incrRPM user.name], true) := by
  have hstrategy : ¬ ((getRoutingStrategy server headers).2 = true ∧
      ¬ (validate server (getRoutingStrategy server headers).1).2 = true) :=
    fun hboth => hboth.2 (h.strategy hboth.1)
  have hget : (redisAnswers rl s.redis now user).getUser = .ok user := rfl
  unfold handled handleRequestHeaders
  dsimp only
  rw [if_neg hstrategy, if_neg h.user, hget]
  dsimp only
  rw [checkLimits_redisAnswers]
  by_cases hrpm : user.rpmLimit ≤ rl.get s.redis now (rpmKey user.name)
  · rw [if_pos hrpm, if_pos hrpm]
    rfl
  · rw [if_neg hrpm, if_neg hrpm]
    by_cases htpm : user.tpmLimit ≤
        rl.get (rl.incr s.redis now (rpmKey user.name) 1) now (tpmKey user.name)
    · rw [if_pos htpm, if_pos htpm]
      rfl
    · rw [if_neg htpm, if_neg htpm]
      rfl

variable (rl s now) in
lemma handled_ops (server : Server) (headers : List HeaderValue) (user : User) :
    (s.handled rl now server headers user).ops = [] ∨
      (s.handled rl now server headers user).ops = [.incrRPM user.name] := by
  by_cases hstrategy : (getRoutingStrategy server headers).2 = true ∧
      ¬ (validate server (getRoutingStrategy server headers).1).2 = true
  · apply Or.inl
    unfold handled handleRequestHeaders
    dsimp only
    rw [if_pos hstrategy]
  · by_cases hname : getUsername headers = ""
    · apply Or.inl
      unfold handled handleRequestHeaders
      dsimp only
      rw [if_neg hstrategy, if_pos hname]
    · have hlimited : Limited server headers :=
        ⟨fun he => by by_contra hv; exact hstrategy ⟨he, hv⟩, hname⟩
      have hops := congrArg Prod.fst (handled_of_limited rl s now hlimited user)
      dsimp only at hops
      rw [hops]
      split
      · exact .inl rfl
      · split <;> exact .inr rfl

lemma Inv.request (h : Inv rl w s) (hnow : s.clock ≤ now) (hw : rl.window now = w) (server : Server)
    (headers : List HeaderValue) (user : User) :
    Inv rl w { s.act rl now (.request server headers user) with clock := now } := by
  obtain ⟨counters, hcounts, htpm⟩ := h
  rcases handled_ops rl s now server headers user with hops | hops
  · refine ⟨counters, ?_, htpm⟩
    simp only [Usage.act, hops]
    exact hcounts.later hnow
  · refine ⟨update counters (rpmKey user.name) (counters (rpmKey user.name) + 1), ?_,
      fun printed => ?_⟩
    · simp only [Usage.act, hops]
      exact hcounts.incr hnow hw (rpmKey user.name) 1
    · rw [update_of_ne (rpmKey_ne_tpmKey _ _).symm]
      exact htpm printed

lemma Inv.complete (h : Inv rl w s) (hnow : s.clock ≤ now) (hw : rl.window now = w) (user : User)
    (tokens : ℤ) (charges : List ℤ) :
    Inv rl w { s.act rl now (.complete user tokens charges) with clock := now } := by
  obtain ⟨counters, hcounts, htpm⟩ := h
  refine ⟨_, counts_charges hcounts hnow hw user charges, fun printed => ?_⟩
  show _ = update s.charged user.print (s.charged user.print + charges.sum) printed
  by_cases hp : printed = user.print
  · subst hp
    rw [update_self, update_self, htpm]
  · rw [update_of_ne hp, update_of_ne fun hkey => hp (tpmKey_injective hkey)]
    exact htpm printed

/-- **One event** keeps what the counters of tokens have. -/
lemma Inv.step (h : Inv rl w s) (e : Event) : Inv rl w (s.step rl w e) := by
  obtain ⟨now, act⟩ := e
  unfold Usage.step
  split
  · rename_i htime
    cases act with
    | request server headers user => exact h.request htime.1 htime.2 server headers user
    | complete user tokens charges => exact h.complete htime.1 htime.2 user tokens charges
  · exact h

/-- As soon as the tokens reported for a user reach the limit, a further request is rejected. -/
def Enforced (rl : RateLimiter) (s : Usage R) (now : ℕ) (server : Server)
    (headers : List HeaderValue) (user : User) : Prop :=
  user.tpm ≤ s.reported user.name → (s.handled rl now server headers user).accepted = false

/-- **When the limit of tokens is kept**, for a request of a user with a positive limit after any
requests and responses of a window: the tokens have not reached it, or the request is one too many
for the minute, or as many tokens were charged for other users that are printed as this user's
name. -/
theorem enforced_iff {redis : R} {log : List RateLimiter.Added} {clock : ℕ}
    (hfollows : rl.Follows redis log clock) (hnew : ∀ a ∈ log, rl.window a.now < w) (es : List Event)
    {server : Server} {headers : List HeaderValue} {user : User} (hlimited : Limited server headers)
    (htpm : 0 < user.tpm) (hnow : (run rl w redis clock es).clock ≤ now) (hw : rl.window now = w) :
    Enforced rl (run rl w redis clock es) now server headers user ↔
      (run rl w redis clock es).reported user.name < user.tpm ∨
      user.rpmLimit ≤ rl.get (run rl w redis clock es).redis now (rpmKey user.name) ∨
      user.tpm ≤ (run rl w redis clock es).charged user.name := by
  have hinit : Inv rl w { redis := redis, clock := clock } :=
    ⟨fun _ => 0, hfollows.counts hnew, fun _ => rfl⟩
  have hinv : Inv rl w (run rl w redis clock es) :=
    Lib.foldl_invariant hinit (fun s e h => h.step e) es
  obtain ⟨counters, hcounts, hcharged⟩ := hinv
  generalize run rl w redis clock es = s at *
  have hread : rl.get (rl.incr s.redis now (rpmKey user.name) 1) now (tpmKey user.name) =
      s.charged user.name := by
    rw [(hcounts.incr hnow hw (rpmKey user.name) 1).get le_rfl hw,
      update_of_ne (rpmKey_ne_tpmKey _ _).symm, hcharged]
  have hlimit : user.tpmLimit = user.tpm := if_neg (by omega)
  have haccepted := congrArg Prod.snd (handled_of_limited rl s now hlimited user)
  rw [hread, hlimit] at haccepted
  dsimp only at haccepted
  unfold Enforced
  rw [haccepted]
  by_cases hrpm : user.rpmLimit ≤ rl.get s.redis now (rpmKey user.name)
  · simp [hrpm]
  · by_cases hcharge : user.tpm ≤ s.charged user.name
    · simp [hrpm, hcharge]
    · simp [hrpm, hcharge]

/-- A user with ten tokens a minute, and the headers of a request of that user. -/
def alice : User := ⟨"alice", 0, 10⟩

def aliceHeaders : List HeaderValue := [⟨"user", "", "alice"⟩]

/-- With one request a minute the limit of the tokens is kept by that of the requests. -/
theorem enforced_iff_alice :
    let user := { alice with rpm := 1 }
    let s := run Checks.minutes 0 Redis.empty 0
      [⟨0, .request Small.server aliceHeaders user⟩, ⟨0, .complete user 10 [10, 10]⟩]
    Limited Small.server aliceHeaders ∧ user.tpm ≤ s.reported "alice" ∧
      Enforced Checks.minutes s 1 Small.server aliceHeaders user := by
  have hlimited : Limited Small.server aliceHeaders := ⟨by decide +kernel, by decide +kernel⟩
  refine ⟨hlimited, by decide +kernel, ?_⟩
  exact (enforced_iff (RateLimiter.follows_empty 0) (by simp) _ hlimited (by decide)
    (by decide +kernel) (by decide +kernel)).mpr (Or.inr (Or.inl (by decide +kernel)))

/-- A response of ten tokens is charged twice; the next request is let through all the same. -/
theorem enforced_fails :
    let s := run Checks.minutes 0 Redis.empty 0
      [⟨0, .request Small.server aliceHeaders alice⟩, ⟨0, .complete alice 10 [10, 10]⟩]
    s.reported "alice" = 10 ∧ (s.handled Checks.minutes 1 Small.server aliceHeaders alice).accepted ∧
      ¬ Enforced Checks.minutes s 1 Small.server aliceHeaders alice := by
  intro s
  have hreported : s.reported "alice" = 10 := by decide +kernel
  have haccepted : (s.handled Checks.minutes 1 Small.server aliceHeaders alice).accepted = true := by
    decide +kernel
  refine ⟨hreported, haccepted, fun h => ?_⟩
  have hrejected := h (by rw [show alice.name = "alice" from rfl, hreported]; decide)
  rw [haccepted] at hrejected
  cases hrejected

end Usage

/-! ### Rejected requests -/

/-- Which calls on Redis fail; an increment that fails may have taken effect. -/
structure RedisFaults where
  getRPM : Bool := false
  incrRPM : Bool := false
  applied : Bool := false
  getTPM : Bool := false

section

variable (rl : RateLimiter) (r : R) (now : ℕ) (user : User) (faults : RedisFaults)

def faultyAnswers : HeadersEnv :=
  let answers := redisAnswers rl r now user
  { answers with
    getRPM := if faults.getRPM then none else answers.getRPM
    incrRPM := if faults.incrRPM then none else answers.incrRPM
    getTPM := if faults.getTPM then none else answers.getTPM }

/-- Redis after a check. -/
def redisAfterCheck : R :=
  if (checkLimits (faultyAnswers rl r now user faults) user).1 = [] ∨
      (faults.incrRPM ∧ ¬ faults.applied) then r
  else rl.incr r now (rpmKey user.name) 1

lemma get_incr (key key' : String) (val : ℤ) : rl.get (rl.incr r now key val) now key' =
      rl.get r now key' + if key' = key then val else 0 := by
  have hpos : 0 < rl.windowSize * RateLimiter.second := Nat.mul_pos rl.pos RateLimiter.second_pos
  rw [RateLimiter.get, RedisService.get_eq, RateLimiter.entries_incr]
  by_cases h : key' = key
  · subst h
    rw [if_pos rfl, Redis.get, Redis.live_some (update_self ..), if_pos (by omega)]
    rfl
  · have hne : rl.genKey now key' ≠ rl.genKey now key := fun heq => h (RateLimiter.genKey_inj heq).1
    rw [if_neg h, add_zero, Redis.get, Redis.live, update_of_ne hne, RateLimiter.get,
      RedisService.get_eq]
    rfl

/-- The check with faults, by the limits and the counters before it. -/
lemma checkLimits_faultyAnswers : checkLimits (faultyAnswers rl r now user faults) user =
      if faults.getRPM then ([], .error (Refusal.getRPM.reply user))
      else if user.rpmLimit ≤ rl.get r now (rpmKey user.name) then
        ([], .error (Refusal.exceededRPM.reply user))
      else ([.incrRPM user.name], if faults.incrRPM then .error (Refusal.incrRPM.reply user)
        else if faults.getTPM then .error (Refusal.getTPM.reply user)
        else if user.tpmLimit ≤ rl.get r now (tpmKey user.name) then
          .error (Refusal.exceededTPM.reply user)
        else .ok (rl.incrAnswer r now (rpmKey user.name) 1)) := by
  have htpm : rl.get (rl.incr r now (rpmKey user.name) 1) now (tpmKey user.name) =
      rl.get r now (tpmKey user.name) := by
    rw [get_incr, if_neg (rpmKey_ne_tpmKey _ _).symm, add_zero]
  unfold checkLimits faultyAnswers redisAnswers
  rw [htpm]
  obtain ⟨getRPM, incrRPM, applied, getTPM⟩ := faults
  cases getRPM with
  | true => rfl
  | false =>
    by_cases hrpm : user.rpmLimit ≤ rl.get r now (rpmKey user.name)
    · rw [if_pos hrpm]
      exact if_pos hrpm
    · rw [if_neg hrpm]
      refine (if_neg hrpm).trans ?_
      cases incrRPM with
      | true => rfl
      | false =>
        cases getTPM with
        | true => rfl
        | false => exact (apply_ite (Prod.mk [Op.incrRPM user.name]) _ _ _).symm

/-- **A rejection leaves the counters exactly if** it comes before the increment of the requests. -/
theorem rejected_unchanged_iff :
    (∀ resp, (checkLimits (faultyAnswers rl r now user faults) user).2 = .error resp →
      ∀ key, rl.get (redisAfterCheck rl r now user faults) now key = rl.get r now key) ↔
    faults.getRPM ∨ user.rpmLimit ≤ rl.get r now (rpmKey user.name) ∨
      if faults.incrRPM then faults.applied = false
      else faults.getTPM = false ∧ rl.get r now (tpmKey user.name) < user.tpmLimit := by
  have hchanged : ¬ ∀ key, rl.get (rl.incr r now (rpmKey user.name) 1) now key =
      rl.get r now key := fun h => by simpa [get_incr] using h (rpmKey user.name)
  unfold redisAfterCheck
  rw [checkLimits_faultyAnswers]
  obtain ⟨getRPM, incrRPM, applied, getTPM⟩ := faults
  cases getRPM with
  | true => simp
  | false =>
    by_cases hlimit : user.rpmLimit ≤ rl.get r now (rpmKey user.name)
    · simp [hlimit]
    · -- the increment has been called
      cases incrRPM with
      | true => cases applied <;> simp [hlimit, hchanged]
      | false =>
        cases getTPM with
        | true => simp [hlimit, hchanged]
        | false =>
          by_cases htpm : user.tpmLimit ≤ rl.get r now (tpmKey user.name)
          · simp [hlimit, hchanged, htpm]
          · simp [hlimit, htpm, not_le.mp htpm]

/-- Whoever has used up the tokens pays a request for each rejection. -/
theorem rejected_counted :
    let rl := RateLimiter.newRedisAccountRateLimiter "aibrix" 60
    let user : User := { name := "alice", rpm := 10, tpm := 1 }
    let r := rl.incr Redis.empty 0 (tpmKey "alice") 1
    (checkLimits (faultyAnswers rl r 0 user {}) user).2 = .error (Refusal.exceededTPM.reply user) ∧
      rl.get r 0 (rpmKey "alice") = 0 ∧
      rl.get (redisAfterCheck rl r 0 user {}) 0 (rpmKey "alice") = 1 := by
  decide +kernel

end
end Lodestar.Gateway
