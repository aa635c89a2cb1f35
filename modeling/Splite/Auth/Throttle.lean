import Splite.Basic
import Splite.Mercantil.Matcher
import Splite.Lib.Backed
import Splite.Lib.Expiring
import Splite.Lib.Monitor

/-!
# Failed logins (`services/loginThrottle.js`, as `auth.js` and `operators.js` call it)

Attempts on accounts in any number of processes, statement by statement: the count is read, the credential
verified, and then the failure recorded or the count cleared. A command of Redis is carried out or fails,
and an attempt may be broken off between two of them.

* `throttle_exact`: an attempt is refused exactly when the failures of its account on record, each within a
  window of the one before it and none behind a success, are `maxAccountFailures` or more.
* `guesses_bounded`: within a window no more than `maxAccountFailures`, and what is verified at a time, fail.
-/

namespace Splite

/-- `config.auth` and `config.rateLimit`, as far as they are read here. -/
structure ThrottleConfig where
  maxAccountFailures : Nat
  accountFailureWindowSeconds : Nat
  failClosedOnAuth : Bool

def ThrottleConfig.window (config : ThrottleConfig) : Nat := config.accountFailureWindowSeconds * 1000

/-- Whether `GET` and `TTL` of an attempt answer, and whether its last command is carried out. -/
structure ThrottleAnswers where
  get : Bool
  ttl : Bool
  write : Bool
  deriving DecidableEq, Repr

inductive ThrottleCall where
  /-- `account` is the address that is submitted, the id of a user who is asked for a code, or
  `operator:` and an address. -/
  | attempt (account : String) (verified : Bool) (redis : ThrottleAnswers)
  | evict (key : String)
  | elapse (ms : Nat)
  deriving DecidableEq, Repr

inductive ThrottlePhase where
  | begun (call : ThrottleCall)
  /-- `assertNotThrottled` has returned. -/
  | verifying (key : String) (verified write : Bool)
  deriving DecidableEq, Repr

inductive ThrottleEvent where
  | refused (key : String) (now : Time) (err : Err)
  | admitted (key : String) (now : Time)
  /-- The count cannot be read, and the attempt goes on. -/
  | waved (key : String)
  | unavailable (key : String) (err : Err)
  | failed (key : String) (now : Time) (recorded : Bool)
  | accepted (key : String) (cleared : Bool)
  | evicted (key : String)
  deriving DecidableEq, Repr

section Services

variable (config : ThrottleConfig) (hashToken : String → String)

def keyFor (email : String) : String :=
  "auth:acct:" ++ hashToken (String.ofList ((Mercantil.trimmed email.toList).map Char.toLower))

def throttleDetails (seconds : Int) : List (String × String) := [("retryAfterSeconds", toString seconds)]

/-- What `assertNotThrottled` throws. -/
def throttled (s : Counters String) (key : String) (redis : ThrottleAnswers) : Err :=
  .api .rateLimited "Too many failed attempts" (throttleDetails
    (if !redis.ttl || s.ttl key < 0 then config.accountFailureWindowSeconds else s.ttl key))

/-- The next statement. -/
def ThrottlePhase.next (s : Counters String) (_ : List ThrottlePhase) :
    ThrottlePhase → Advance (Counters String) ThrottlePhase ThrottleEvent
  | .begun (.attempt account verified redis) =>
    let key := keyFor hashToken account
    if redis.get then
      -- `Number(null)` is 0.
      if config.maxAccountFailures ≤ (s.get key).elim 0 Counter.count then
        .ends s [.refused key s.now (throttled config s key redis)]
      else .goes s (.verifying key verified redis.write) [.admitted key s.now]
    else if config.failClosedOnAuth then
      .ends s [.unavailable key (.api .rateLimiterUnavailable "Rate limiter unavailable"
        (throttleDetails config.accountFailureWindowSeconds))]
    else .goes s (.verifying key verified redis.write) [.waved key]
  | .begun (.evict key) => .ends (s.delete key) [.evicted key]
  | .begun (.elapse ms) => .ends (s.elapse ms) []
  | .verifying key true write => .ends (if write then s.delete key else s) [.accepted key write]
  | .verifying key false write =>
    .ends (if write then (s.incr key).expire key config.window else s) [.failed key s.now write]

def throttles : Protocol (Counters String) ThrottlePhase ThrottleCall ThrottleEvent :=
  ⟨.begun, ThrottlePhase.next config hashToken⟩

end Services

/-! ## What is on record -/

/-- Failures, each within a window of the one before it. -/
structure Streak where
  count : Nat
  last : Time
  deriving DecidableEq, Repr

section Record

variable (config : ThrottleConfig) (key : String)

/-- How many failures count at a time. -/
def standing (streak : Option Streak) (now : Time) : Nat :=
  match streak with
  | none => 0
  | some x => if now ≤ x.last + config.window then x.count else 0

/-- A failure goes on with the streak, or begins one; a success ends it, and so does the loss of the
count. -/
def Streak.read (streak : Option Streak) : ThrottleEvent → Option Streak
  | .failed k now true => if k = key then some ⟨standing config streak now + 1, now⟩ else streak
  | .accepted k true => if k = key then none else streak
  | .evicted k => if k = key then none else streak
  | _ => streak

/-- An attempt is refused when enough failures stand, with the time until they do not, and admitted when
not. -/
def Streak.Judged (streak : Option Streak) : ThrottleEvent → Prop
  | .refused k now err => k = key → config.maxAccountFailures ≤ standing config streak now ∧
    ∃ seconds, err = .api .rateLimited "Too many failed attempts" (throttleDetails seconds) ∧
      (seconds = config.accountFailureWindowSeconds ∨
        ∃ x ∈ streak, seconds = ((x.last + config.window - now + 500) / 1000 : Nat))
  | .admitted k now => k = key → standing config streak now < config.maxAccountFailures
  | _ => True

def streaks : Monitor (Option Streak) ThrottleEvent := ⟨Streak.read config key, Streak.Judged config key⟩

end Record

/-! ## The counter mirrors the record -/

section Mirror

variable {config : ThrottleConfig} {hashToken : String → String} {key : String} {s s' : Counters String}
  {t t' : ThrottlePhase} {us : List ThrottlePhase} {answer : List ThrottleEvent} {streak : Option Streak}

/-- The counter is the streak, and lives for a window from its last failure on. -/
def Mirrors (config : ThrottleConfig) (key : String) (s : Counters String) : Option Streak → Prop
  | none => s.stored key = none
  | some x => ∃ c, s.stored key = some c ∧ c.count = x.count ∧ c.expiry = some (x.last + config.window)

theorem Mirrors.standing (h : Mirrors config key s streak) :
    standing config streak s.now = (s.get key).elim 0 Counter.count := by
  cases streak with
  | none => simp [Splite.standing, Counters.get, show s.stored key = none from h]
  | some x =>
    obtain ⟨c, hc, hcount, hexpiry⟩ := h
    by_cases hlive : s.now ≤ x.last + config.window
    · have hget : s.get key = some c := Counters.get_eq_some.mpr ⟨hc, by simpa [hexpiry] using hlive⟩
      simp [Splite.standing, hget, hlive, hcount]
    · have hget : s.get key = none := Counters.get_eq_none.mpr fun c' hc' => by
        obtain rfl : c = c' := Option.some.inj (hc.symm.trans hc')
        exact ⟨_, hexpiry, not_le.mp hlive⟩
      simp [Splite.standing, hget, hlive]

theorem Mirrors.congr (h : Mirrors config key s streak) (hsame : s'.stored key = s.stored key) :
    Mirrors config key s' streak := by
  cases streak with
  | none => exact hsame.trans h
  | some x =>
    obtain ⟨c, hc, hrest⟩ := h
    exact ⟨c, hsame.trans hc, hrest⟩

/-- A failure that is recorded goes on with the streak, or begins one. -/
theorem Mirrors.recorded (h : Mirrors config key s streak) :
    Mirrors config key ((s.incr key).expire key config.window)
      (some ⟨Splite.standing config streak s.now + 1, s.now⟩) := by
  refine ⟨_, Counters.stored_expire_of_some Counters.get_incr_self, ?_, by simp⟩
  rw [h.standing]
  cases hget : s.get key with
  | none => simp [Counters.bumped_of_none hget]
  | some c => simp [Counters.bumped_of_some hget]

/-- The time that an attempt is told to wait is what is left of the window, to half a second. -/
theorem Mirrors.throttled (h : Mirrors config key s streak) (redis : ThrottleAnswers) :
    ∃ seconds, throttled config s key redis =
        .api .rateLimited "Too many failed attempts" (throttleDetails seconds) ∧
      (seconds = config.accountFailureWindowSeconds ∨
        ∃ x ∈ streak, seconds = ((x.last + config.window - s.now + 500) / 1000 : Nat)) := by
  refine ⟨_, rfl, ?_⟩
  by_cases hset : (!redis.ttl || decide (s.ttl key < 0)) = true
  · left
    simp only [hset, if_true]
  · right
    rw [if_neg hset]
    simp only [Bool.or_eq_true, decide_eq_true_eq, not_or, not_lt] at hset
    cases hget : s.get key with
    | none =>
      have hneg : s.ttl key = -2 := by simp [Counters.ttl, hget]
      omega
    | some c =>
      cases streak with
      | none =>
        have hnone : s.stored key = none := h
        rw [(Counters.get_eq_some.mp hget).1] at hnone
        cases hnone
      | some x =>
        obtain ⟨c', hc', -, hexpiry⟩ := h
        obtain rfl : c = c' := Option.some.inj ((Counters.get_eq_some.mp hget).1.symm.trans hc')
        obtain ⟨count, born, expiry⟩ := c
        obtain rfl : expiry = some (x.last + config.window) := hexpiry
        exact ⟨x, rfl, by simp [Counters.ttl, hget]⟩

/-- What a statement answers is judged rightly, and the counter mirrors the record behind it. -/
theorem mirrors_next (h : Mirrors config key s streak) :
    (streaks config key).Accepts streak ((throttles config hashToken).next s us t).answer ∧
      Mirrors config key (((throttles config hashToken).next s us t).committed s)
        ((streaks config key).readAll streak ((throttles config hashToken).next s us t).answer) := by
  have hidle : Mirrors config key s streak := h
  change (streaks config key).Accepts streak (ThrottlePhase.next config hashToken s us t).answer ∧
    Mirrors config key ((ThrottlePhase.next config hashToken s us t).committed s)
      ((streaks config key).readAll streak (ThrottlePhase.next config hashToken s us t).answer)
  cases t with
  | begun call =>
    cases call with
    | attempt account verified redis =>
      unfold ThrottlePhase.next
      dsimp only
      split
      · split
        · rename_i hfull
          refine ⟨⟨?_, trivial⟩, hidle⟩
          rintro rfl
          exact ⟨h.standing ▸ hfull, h.throttled redis⟩
        · rename_i hfree
          refine ⟨⟨?_, trivial⟩, hidle⟩
          rintro rfl
          exact h.standing ▸ not_le.mp hfree
      · split
        · exact ⟨⟨trivial, trivial⟩, hidle⟩
        · exact ⟨⟨trivial, trivial⟩, hidle⟩
    | evict k =>
      refine ⟨⟨trivial, trivial⟩, ?_⟩
      change Mirrors config key (s.delete k) (if k = key then none else streak)
      by_cases hk : k = key
      · subst hk
        rw [if_pos rfl]
        exact Counters.stored_delete_self
      · rw [if_neg hk]
        exact h.congr (Counters.stored_delete_other (Ne.symm hk))
    | elapse ms => exact ⟨trivial, h.congr rfl⟩
  | verifying k verified write =>
    cases verified with
    | true =>
      refine ⟨⟨trivial, trivial⟩, ?_⟩
      cases write with
      | false => exact hidle
      | true =>
        change Mirrors config key (s.delete k) (if k = key then none else streak)
        by_cases hk : k = key
        · subst hk
          rw [if_pos rfl]
          exact Counters.stored_delete_self
        · rw [if_neg hk]
          exact h.congr (Counters.stored_delete_other (Ne.symm hk))
    | false =>
      refine ⟨⟨trivial, trivial⟩, ?_⟩
      cases write with
      | false => exact hidle
      | true =>
        change Mirrors config key ((s.incr k).expire k config.window)
          (if k = key then some ⟨standing config streak s.now + 1, s.now⟩ else streak)
        by_cases hk : k = key
        · subst hk
          rw [if_pos rfl]
          exact h.recorded
        · rw [if_neg hk]
          exact h.congr ((Counters.stored_expire_other (Ne.symm hk)).trans
            (Counters.stored_incr_other (Ne.symm hk)))

end Mirror

section Exact

variable {config : ThrottleConfig} {hashToken : String → String} {key : String} {s : Counters String}
  {w : Sessions (Counters String) ThrottlePhase} {streak : Option Streak}

theorem mirrors_step (hashToken : String → String) (h : Mirrors config key w.committed streak)
    (m : Move ThrottleCall) :
    (streaks config key).Accepts streak ((throttles config hashToken).machine.step w m).2 ∧
      Mirrors config key ((throttles config hashToken).machine.step w m).1.committed
        ((streaks config key).readAll streak ((throttles config hashToken).machine.step w m).2) := by
  rcases Protocol.move_cases (p := throttles config hashToken) w m with
    ⟨r, -, -, hcommitted, hanswer⟩ | ⟨hcommitted, hanswer, -⟩
  · rw [hcommitted, hanswer]
    exact mirrors_next h
  · rw [hcommitted, hanswer]
    exact ⟨trivial, h⟩

/-- Attempts are refused and admitted by what is on record of their account: `maxAccountFailures` failures
or more, each within a window of the one before it, the last within a window of now, and no success behind
them. A refused attempt leaves no record. -/
theorem throttle_exact (account : String) (hs : s.stored (keyFor hashToken account) = none)
    (moves : List (Move ThrottleCall)) (before after : List ThrottleEvent) (e : ThrottleEvent)
    (htrace : (throttles config hashToken).machine.outputs (Sessions.start s) moves = before ++ e :: after) :
    Streak.Judged config (keyFor hashToken account)
      ((streaks config (keyFor hashToken account)).readAll none before) e := by
  have hstart : Mirrors config (keyFor hashToken account)
      (Sessions.start (τ := ThrottlePhase) s).committed none := hs
  have hrun := Machine.monitored (m := (throttles config hashToken).machine) (G := fun _ _ => True)
    (R := fun w streak => Mirrors config (keyFor hashToken account) w.committed streak)
    (fun w m _ hw _ => mirrors_step hashToken hw m) hstart
    (Machine.every_input.mpr fun m (_ : m ∈ moves) => trivial)
  exact Monitor.accepts_iff.mp hrun.1 before e after htrace

end Exact

/-! ## Guesses -/

/-- The attempts of an account that are being verified. -/
def ThrottlePhase.held (key : String) : ThrottlePhase → Nat
  | .verifying k _ _ => if k = key then 1 else 0
  | .begun _ => 0

section Guesses

variable (config : ThrottleConfig) (hashToken : String → String) (key : String) (K : Nat)

/-- What is asked of Redis: the count is read, or the limiter fails closed, and a failure is recorded. -/
def ThrottleCall.Recorded : ThrottleCall → Prop
  | .attempt account verified redis => keyFor hashToken account = key →
    (redis.get = true ∨ config.failClosedOnAuth = true) ∧ (verified = false → redis.write = true)
  | _ => True

def ThrottlePhase.Recorded : ThrottlePhase → Prop
  | .begun call => call.Recorded config hashToken key
  | .verifying k verified write => k = key → verified = false → write = true

/-- An attempt begins while fewer than `K` are being verified. -/
def Room (w : Sessions (Counters String) ThrottlePhase) : Move ThrottleCall → Prop
  | .go id => ∀ r ∈ w.running.find? id, ∀ account ∈ (match r.state with
      | .begun (.attempt account _ _) => some account
      | _ => none),
    keyFor hashToken account = key → Protocol.load (ThrottlePhase.held key) w < K
  | _ => True

instance (w : Sessions (Counters String) ThrottlePhase) : ∀ m, Decidable (Room hashToken key K w m)
  | .go id => inferInstanceAs (Decidable (∀ r ∈ w.running.find? id, ∀ account ∈ (match r.state with
      | .begun (.attempt account _ _) => some account
      | _ => none),
    keyFor hashToken account = key → Protocol.load (ThrottlePhase.held key) w < K))
  | .start _ _ | .abort _ => isTrue trivial

instance : ∀ call : ThrottleCall, Decidable (call.Recorded config hashToken key)
  | .attempt account verified redis => inferInstanceAs (Decidable (keyFor hashToken account = key →
      (redis.get = true ∨ config.failClosedOnAuth = true) ∧ (verified = false → redis.write = true)))
  | .evict _ | .elapse _ => isTrue trivial

/-- A failure is recorded, and the streak stays under the limit and what is verified at a time. -/
def Streak.Bounded (streak : Option Streak) : ThrottleEvent → Prop
  | .failed k now recorded => k = key → recorded = true ∧
    standing config streak now + 1 < config.maxAccountFailures + K
  | _ => True

def guesses : Monitor (Option Streak) ThrottleEvent := ⟨Streak.read config key, Streak.Bounded config key K⟩

/-- `n` failures on record and `v` attempts under way, of which those beyond the limit were admitted
below it. -/
def Crowd (n v : Nat) : Prop :=
  v ≤ K ∧ (config.maxAccountFailures ≤ n → n + v < config.maxAccountFailures + K)

variable {config key K} {n n' v v' : Nat}

theorem Crowd.mono (h : Crowd config K n v) (hn : n' ≤ n) (hv : v' ≤ v) : Crowd config K n' v' :=
  ⟨hv.trans h.1, fun hmax => (Nat.add_le_add hn hv).trans_lt (h.2 (hmax.trans hn))⟩

theorem Crowd.admitted (h : v < K) (hn : n < config.maxAccountFailures) : Crowd config K n (v + 1) :=
  ⟨h, fun hmax => absurd hn (not_lt.mpr hmax)⟩

/-- A failure that was under way is on record then. -/
theorem Crowd.failed (h : Crowd config K n (v + 1)) :
    Crowd config K (n + 1) v ∧ n + 1 < config.maxAccountFailures + K := by
  obtain ⟨hv, hmax⟩ := h
  by_cases hfull : config.maxAccountFailures ≤ n
  · have := hmax hfull
    exact ⟨⟨by omega, fun _ => by omega⟩, by omega⟩
  · exact ⟨⟨by omega, fun _ => by omega⟩, by omega⟩

/-- Failures within a window, with no success between them, are one streak. -/
def Within (key : String) (t W : Nat) : ThrottleEvent → Prop
  | .failed k now _ => k = key → t ≤ now ∧ now ≤ t + W
  | .accepted k true | .evicted k => k ≠ key
  | _ => True

instance (key : String) (t W : Nat) : ∀ e, Decidable (Within key t W e)
  | .failed k now _ => inferInstanceAs (Decidable (k = key → t ≤ now ∧ now ≤ t + W))
  | .accepted k true => inferInstanceAs (Decidable (k ≠ key))
  | .evicted k => inferInstanceAs (Decidable (k ≠ key))
  | .accepted _ false | .refused _ _ _ | .admitted _ _ | .waved _ | .unavailable _ _ => isTrue trivial

def ThrottleEvent.failedOn (key : String) : ThrottleEvent → Bool
  | .failed k _ _ => k = key
  | _ => false

variable {t : Nat} {seg : List ThrottleEvent} {streak : Option Streak} {x : Streak} {e : ThrottleEvent}

/-- What is no failure of the account leaves its streak, within the window. -/
theorem read_of_not_failed (hin : Within key t config.window e) (he : e.failedOn key = false) :
    Streak.read config key streak e = streak := by
  cases e with
  | failed k now recorded =>
    have hk : k ≠ key := by simpa [ThrottleEvent.failedOn] using he
    cases recorded <;> simp [Streak.read, hk]
  | accepted k cleared =>
    cases cleared with
    | false => rfl
    | true => exact if_neg hin
  | evicted k => exact if_neg hin
  | _ => rfl

theorem countP_streak (h : (guesses config key K).Accepts (some x) seg)
    (hin : ∀ e ∈ seg, Within key t config.window e) (hx : t ≤ x.last)
    (hcount : x.count < config.maxAccountFailures + K) :
    x.count + seg.countP (ThrottleEvent.failedOn key) < config.maxAccountFailures + K := by
  induction seg generalizing x with
  | nil => exact hcount
  | cons e seg ih =>
    have hrest : ∀ e ∈ seg, Within key t config.window e := fun e' he' => hin e' (List.mem_cons_of_mem _ he')
    have hhere := hin e List.mem_cons_self
    by_cases he : e.failedOn key = true
    · cases e with
      | failed k now recorded =>
        obtain rfl : k = key := by simpa [ThrottleEvent.failedOn] using he
        obtain ⟨rfl, hbound⟩ := h.1 rfl
        obtain ⟨hfrom, hto⟩ := hhere rfl
        have hstanding : standing config (some x) now = x.count :=
          if_pos (hto.trans (Nat.add_le_add_right hx _))
        have hread : (guesses config k K).read (some x) (.failed k now true) = some ⟨x.count + 1, now⟩ := by
          simp [guesses, Streak.read, hstanding]
        have : x.count + 1 + seg.countP (ThrottleEvent.failedOn k) < config.maxAccountFailures + K :=
          ih (x := ⟨x.count + 1, now⟩) (hread ▸ h.2) hrest hfrom (hstanding ▸ hbound)
        rw [List.countP_cons_of_pos he]
        omega
      | _ => cases he
    · have he := Bool.not_eq_true _ ▸ he
      rw [List.countP_cons_of_neg (by simp [he])]
      have hread : (guesses config key K).read (some x) e = some x := read_of_not_failed hhere he
      exact ih (hread ▸ h.2) hrest hx hcount

theorem countP_within (hK : 0 < K) (h : (guesses config key K).Accepts streak seg)
    (hin : ∀ e ∈ seg, Within key t config.window e) :
    seg.countP (ThrottleEvent.failedOn key) < config.maxAccountFailures + K := by
  induction seg generalizing streak with
  | nil => exact Nat.add_pos_right _ hK
  | cons e seg ih =>
    have hrest : ∀ e ∈ seg, Within key t config.window e := fun e' he' => hin e' (List.mem_cons_of_mem _ he')
    have hhere := hin e List.mem_cons_self
    by_cases he : e.failedOn key = true
    · cases e with
      | failed k now recorded =>
        obtain rfl : k = key := by simpa [ThrottleEvent.failedOn] using he
        obtain ⟨rfl, hbound⟩ := h.1 rfl
        have hread : (guesses config k K).read streak (.failed k now true) =
            some ⟨standing config streak now + 1, now⟩ := by
          simp [guesses, Streak.read]
        have : standing config streak now + 1 + seg.countP (ThrottleEvent.failedOn k) <
            config.maxAccountFailures + K :=
          countP_streak (x := ⟨standing config streak now + 1, now⟩) (hread ▸ h.2) hrest (hhere rfl).1 hbound
        rw [List.countP_cons_of_pos he]
        omega
      | _ => cases he
    · have he := Bool.not_eq_true _ ▸ he
      rw [List.countP_cons_of_neg (by simp [he])]
      have hread : (guesses config key K).read streak e = streak := read_of_not_failed hhere he
      exact ih (hread ▸ h.2) hrest

variable {s s' : Counters String} {t : ThrottlePhase} {t' : ThrottlePhase} {us : List ThrottlePhase}
  {answer : List ThrottleEvent} {hashToken : String → String}

theorem standing_later (streak : Option Streak) {now : Nat} (d : Nat) :
    standing config streak (now + d) ≤ standing config streak now := by
  cases streak with
  | none => exact le_rfl
  | some x =>
    simp only [standing]
    split
    · rename_i hlate
      rw [if_pos ((Nat.le_add_right _ _).trans hlate)]
    · exact Nat.zero_le _

/-- An attempt goes on when it is admitted, or when the count cannot be read and the limit fails open. -/
theorem throttle_goes (h : (throttles config hashToken).next s us t = .goes s' t' answer) :
    ∃ account verified redis, t = .begun (.attempt account verified redis) ∧ s' = s ∧
      t' = .verifying (keyFor hashToken account) verified redis.write ∧
      ((s.get (keyFor hashToken account)).elim 0 Counter.count < config.maxAccountFailures ∧
          answer = [.admitted (keyFor hashToken account) s.now] ∨
        redis.get = false ∧ config.failClosedOnAuth = false ∧
          answer = [.waved (keyFor hashToken account)]) := by
  change ThrottlePhase.next config hashToken s us t = _ at h
  cases t with
  | begun call =>
    cases call with
    | attempt account verified redis =>
      unfold ThrottlePhase.next at h
      dsimp only at h
      split at h
      · split at h
        · cases h
        · rename_i hfree
          cases h
          exact ⟨account, verified, redis, rfl, rfl, rfl, .inl ⟨not_le.mp hfree, rfl⟩⟩
      · rename_i hget
        split at h
        · cases h
        · rename_i hopen
          cases h
          exact ⟨account, verified, redis, rfl, rfl, rfl,
            .inr ⟨by simpa using hget, by simpa using hopen, rfl⟩⟩
    | evict k => cases h
    | elapse ms => cases h
  | verifying k verified write =>
    cases verified <;> cases h

theorem recorded_goes (ht : t.Recorded config hashToken key)
    (h : (throttles config hashToken).next s us t = .goes s' t' answer) :
    t'.Recorded config hashToken key := by
  obtain ⟨account, verified, redis, rfl, -, rfl, -⟩ := throttle_goes h
  exact fun hk => (ht hk).2

/-- An attempt goes on under the limit; `v` is what is verified before. -/
theorem guess_goes (hmirror : Mirrors config key s streak) (hrecorded : t.Recorded config hashToken key)
    (hcrowd : Crowd config K (standing config streak s.now) v)
    (hroom : ∀ account verified redis, t = .begun (.attempt account verified redis) →
      keyFor hashToken account = key → v < K)
    (h : (throttles config hashToken).next s us t = .goes s' t' answer) :
    (guesses config key K).Accepts streak answer ∧ t.held key = 0 ∧
      Crowd config K (standing config ((guesses config key K).readAll streak answer) s'.now)
        (v + t'.held key) := by
  obtain ⟨account, verified, redis, rfl, rfl, rfl, hanswer⟩ := throttle_goes h
  have hread : (guesses config key K).Accepts streak answer ∧
      (guesses config key K).readAll streak answer = streak := by
    rcases hanswer with ⟨-, rfl⟩ | ⟨-, -, rfl⟩ <;> exact ⟨⟨trivial, trivial⟩, rfl⟩
  refine ⟨hread.1, rfl, ?_⟩
  rw [hread.2]
  by_cases hk : keyFor hashToken account = key
  · have hheld : ThrottlePhase.held key (.verifying (keyFor hashToken account) verified redis.write) = 1 :=
      if_pos hk
    rw [hheld]
    refine Crowd.admitted (hroom account verified redis rfl hk) ?_
    rcases hanswer with ⟨hfree, -⟩ | ⟨hget, hopen, -⟩
    · rw [hmirror.standing, ← hk]
      exact hfree
    · rcases (hrecorded hk).1 with hgot | hclosed
      · simp [hget] at hgot
      · simp [hopen] at hclosed
  · have hheld : ThrottlePhase.held key (.verifying (keyFor hashToken account) verified redis.write) = 0 :=
      if_neg hk
    rw [hheld]
    exact hcrowd

/-- The last statement of a call; `v` is what is verified behind it. -/
theorem guess_ends (hrecorded : t.Recorded config hashToken key)
    (hcrowd : Crowd config K (standing config streak s.now) (v + t.held key))
    (h : (throttles config hashToken).next s us t = .ends s' answer) :
    (guesses config key K).Accepts streak answer ∧
      Crowd config K (standing config ((guesses config key K).readAll streak answer) s'.now) v := by
  change ThrottlePhase.next config hashToken s us t = _ at h
  have hless : Crowd config K (standing config streak s.now) v := hcrowd.mono le_rfl (Nat.le_add_right _ _)
  have hgone : Crowd config K 0 v := hless.mono (Nat.zero_le _) le_rfl
  cases t with
  | begun call =>
    cases call with
    | attempt account verified redis =>
      unfold ThrottlePhase.next at h
      dsimp only at h
      split at h
      · split at h
        · cases h
          exact ⟨⟨trivial, trivial⟩, hless⟩
        · cases h
      · split at h
        · cases h
          exact ⟨⟨trivial, trivial⟩, hless⟩
        · cases h
    | evict k =>
      cases h
      refine ⟨⟨trivial, trivial⟩, ?_⟩
      show Crowd config K (standing config (if k = key then none else streak) s.now) v
      split
      · exact hgone
      · exact hless
    | elapse ms =>
      cases h
      exact ⟨trivial, hless.mono (standing_later streak ms) le_rfl⟩
  | verifying k verified write =>
    cases verified with
    | true =>
      cases h
      refine ⟨⟨trivial, trivial⟩, ?_⟩
      cases write with
      | false => exact hless
      | true =>
        show Crowd config K (standing config (if k = key then none else streak) s.now) v
        split
        · exact hgone
        · exact hless
    | false =>
      cases h
      by_cases hk : k = key
      · subst hk
        obtain rfl := hrecorded rfl rfl
        rw [ThrottlePhase.held, if_pos rfl] at hcrowd
        obtain ⟨hcrowd, hbound⟩ := hcrowd.failed
        refine ⟨⟨fun _ => ⟨rfl, hbound⟩, trivial⟩, ?_⟩
        have hread : (guesses config k K).readAll streak [.failed k s.now true] =
            some ⟨standing config streak s.now + 1, s.now⟩ := if_pos rfl
        have hnow : ((s.incr k).expire k config.window).now = s.now := Counters.now_expire
        have hcount : standing config (some ⟨standing config streak s.now + 1, s.now⟩) s.now =
            standing config streak s.now + 1 := if_pos (Nat.le_add_right _ _)
        rw [hread, if_pos rfl, hnow, hcount]
        exact hcrowd
      · refine ⟨⟨fun heq => absurd heq hk, trivial⟩, ?_⟩
        cases write with
        | false => exact hless
        | true =>
          have hread : (guesses config key K).readAll streak [.failed k s.now true] = streak := if_neg hk
          have hnow : ((s.incr k).expire k config.window).now = s.now := Counters.now_expire
          rw [hread, if_pos rfl, hnow]
          exact hless

variable {w : Sessions (Counters String) ThrottlePhase} {account : String}

/-- What runs is recorded, and what is verified is no more than `K`, nor beyond the limit. -/
structure Guessing (config : ThrottleConfig) (hashToken : String → String) (key : String) (K : Nat)
    (w : Sessions (Counters String) ThrottlePhase) (streak : Option Streak) : Prop where
  mirror : Mirrors config key w.committed streak
  recorded : ∀ r ∈ w.running, r.state.Recorded config hashToken key
  crowd : Crowd config K (standing config streak w.committed.now) (Protocol.load (ThrottlePhase.held key) w)

/-- The calls that begin are recorded, and have room. -/
def Spaced (config : ThrottleConfig) (hashToken : String → String) (key : String) (K : Nat)
    (w : Sessions (Counters String) ThrottlePhase) (m : Move ThrottleCall) : Prop :=
  m.Begins (fun _ call => call.Recorded config hashToken key) ∧ Room hashToken key K w m

instance (w : Sessions (Counters String) ThrottlePhase) (m : Move ThrottleCall) :
    Decidable (Spaced config hashToken key K w m) :=
  inferInstanceAs (Decidable (_ ∧ _))

theorem recorded_step (h : Guessing config hashToken key K w streak) {m : Move ThrottleCall}
    (hm : Spaced config hashToken key K w m) :
    ∀ r ∈ ((throttles config hashToken).machine.step w m).1.running,
      r.state.Recorded config hashToken key := by
  have hrule : (throttles config hashToken).Rule (fun call => call.Recorded config hashToken key)
      (fun _ _ _ => True) (fun _ => True) (fun _ t => t.Recorded config hashToken key) fun _ _ => True := by
    refine ⟨fun _ _ _ => trivial, fun _ _ _ hcall => ⟨hcall, fun _ _ => trivial⟩,
      fun s us t _ ht hus _ s' t' answer h => ⟨trivial, ?_, fun u hu => ⟨(hus u hu).1, trivial⟩⟩,
      fun _ _ _ _ _ hus _ _ _ _ => ⟨trivial, fun u hu => (hus u hu).1⟩⟩
    exact recorded_goes ht h
  refine (hrule.step w m ⟨trivial, h.recorded, fun _ _ _ _ _ => trivial⟩ ?_).session
  cases m with
  | start id call => exact hm.1
  | go id => exact fun _ _ => trivial
  | abort id => trivial

theorem guessing_step (h : Guessing config hashToken key K w streak) {m : Move ThrottleCall}
    (hm : Spaced config hashToken key K w m) :
    (guesses config key K).Accepts streak ((throttles config hashToken).machine.step w m).2 ∧
      Guessing config hashToken key K ((throttles config hashToken).machine.step w m).1
        ((guesses config key K).readAll streak ((throttles config hashToken).machine.step w m).2) := by
  have hrecorded := recorded_step h hm
  have hmirror := (mirrors_step hashToken h.mirror m).2
  suffices hcrowd : (guesses config key K).Accepts streak ((throttles config hashToken).machine.step w m).2 ∧
      Crowd config K (standing config ((guesses config key K).readAll streak
        ((throttles config hashToken).machine.step w m).2)
          ((throttles config hashToken).machine.step w m).1.committed.now)
        (Protocol.load (ThrottlePhase.held key) ((throttles config hashToken).machine.step w m).1) from
    ⟨hcrowd.1, hmirror, hrecorded, hcrowd.2⟩
  cases m with
  | start id call =>
    have hsame : Protocol.load (ThrottlePhase.held key)
        ((throttles config hashToken).machine.step w (.start id call)).1 =
          Protocol.load (ThrottlePhase.held key) w := by
      have hload := Protocol.load_start (throttles config hashToken) (ThrottlePhase.held key) w id call
      rcases hload with hload | hload
      · exact hload
      · exact hload
    rw [Protocol.answer_start, Protocol.committed_start, hsame]
    exact ⟨trivial, h.crowd⟩
  | abort id => exact ⟨trivial, h.crowd.mono le_rfl Protocol.load_abort⟩
  | go id =>
    cases hfind : w.running.find? id with
    | none =>
      rw [Protocol.step_idle hfind]
      exact ⟨trivial, h.crowd⟩
    | some r =>
      rw [Protocol.answer_go hfind, Protocol.committed_go hfind]
      cases hnext : (throttles config hashToken).next w.committed (w.others id) r.state with
      | waits =>
        rw [Protocol.step_waits hfind hnext]
        exact ⟨trivial, h.crowd⟩
      | goes s' t' answer =>
        have hload := Protocol.load_goes (ThrottlePhase.held key) hfind hnext
        obtain ⟨haccepts, hheld, hcrowd⟩ := guess_goes h.mirror (h.recorded r (Table.find?_mem hfind)) h.crowd
          (fun account verified redis hr hk => hm.2 r hfind account (by rw [hr]; rfl) hk) hnext
        rw [hheld, Nat.add_zero] at hload
        rw [hload]
        exact ⟨haccepts, hcrowd⟩
      | ends s' answer =>
        have hload := Protocol.load_ends (ThrottlePhase.held key) hfind hnext
        exact guess_ends (h.recorded r (Table.find?_mem hfind)) (hload ▸ h.crowd) hnext

end Guesses

/-! ## Three guesses at once -/

/-- Two failures in a quarter of an hour. -/
def quarter : ThrottleConfig := ⟨2, 900, true⟩

def guess (id : Nat) (account : String) : List (Move ThrottleCall) :=
  [.start id (.attempt account false ⟨true, true, true⟩), .go id]

/-- One guess fails; two more are admitted before they fail, and the next one is refused. -/
def hammered : List (Move ThrottleCall) :=
  guess 0 "ana@x.ve" ++ [.go 0] ++ guess 1 "ana@x.ve" ++ guess 2 " Ana@x.ve" ++ [.go 1, .go 2] ++
    guess 3 "ana@x.ve"

def ana : String := keyFor id "ana@x.ve"

def hammeredTrace : List ThrottleEvent :=
  [.admitted ana 0, .failed ana 0 true, .admitted ana 0, .admitted ana 0, .failed ana 0 true,
   .failed ana 0 true]

/-- The fourth guess is refused for a quarter of an hour. -/
def fourthGuess : ThrottleEvent :=
  .refused ana 0 (.api .rateLimited "Too many failed attempts" (throttleDetails 900))

theorem hammered_outputs : (throttles quarter id).machine.outputs (Sessions.start (.empty 0)) hammered =
    hammeredTrace ++ fourthGuess :: [] := by decide +kernel

theorem fourth_guess_judged :
    Streak.Judged quarter ana ((streaks quarter ana).readAll none hammeredTrace) fourthGuess :=
  throttle_exact "ana@x.ve" rfl hammered hammeredTrace [] fourthGuess hammered_outputs

end Splite
