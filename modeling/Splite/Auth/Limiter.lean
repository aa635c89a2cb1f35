import Splite.Basic
import Splite.Lib.Backed
import Splite.Lib.Expiring
import Splite.Lib.Owing

/-!
# The rate limiter (`middleware/rateLimit.js`, as `app.js` and the routers mount it)

Requests of any number of processes over the counters in Redis: `INCR` and `TTL` in one transaction, then
`EXPIRE` when the counter has no time to live, then the verdict. A command may fail, or be carried out
with its answer lost, and a request may be broken off between two commands.

* `mounted_keys_apart`: no two limiters share a counter, nor a counter the key of a guest session.
* `limiterRule`: a counter lives for its window from its first count on, and for no longer than that from
  now.
* `limiter_bounds`: any window of a limiter has at most `2 * max - 1` requests of an identity that pass.
* `waited_out`: one window behind the last answer the counter is gone.
* `within_limit_passes`: who is refused has made more than `max` requests in hardly more than a window.
-/

namespace Splite

/-- `config.rateLimit`. -/
structure RateLimitConfig where
  apiMax : Nat
  staffMax : Nat
  authMax : Nat
  billsMax : Nat
  failClosedOnAuth : Bool

/-- The options of `rateLimit`. -/
structure Limiter where
  windowSeconds : Nat := 60
  max : Nat := 60
  keyPrefix : String := "rl"
  failClosed : Bool := false
  deriving DecidableEq, Repr

namespace Limiter

def key (l : Limiter) (identity : String) : String := l.keyPrefix ++ ":" ++ identity

def window (l : Limiter) : Time := l.windowSeconds * 1000

end Limiter

/-- Every `rateLimit` of the application. -/
def mounted (config : RateLimitConfig) : List Limiter :=
  [{ max := config.apiMax, keyPrefix := "api" },
   { max := config.staffMax, keyPrefix := "rl:staff" },
   { max := config.authMax, keyPrefix := "auth", failClosed := config.failClosedOnAuth },
   { max := 600, keyPrefix := "bank-inbound-mercantil" },
   { max := 120, keyPrefix := "bank-inbound" },
   { max := config.authMax, keyPrefix := "admin-auth", failClosed := config.failClosedOnAuth },
   { keyPrefix := "orders" },
   { windowSeconds := 3600, max := 5, keyPrefix := "onboard:ip", failClosed := true },
   { windowSeconds := 3600, max := 3, keyPrefix := "onboard:email", failClosed := true },
   { windowSeconds := 3600, max := 10, keyPrefix := "onboard:verify",
     failClosed := config.failClosedOnAuth },
   { max := 240, keyPrefix := "webhook" },
   { keyPrefix := "menu:pdfpub" },
   { max := 1200, keyPrefix := "menu:imgpub" },
   { max := 1200, keyPrefix := "menu:brandpub" },
   { windowSeconds := 300, max := 20, keyPrefix := "menu:pdf" },
   { windowSeconds := 300, keyPrefix := "menu:image" },
   { windowSeconds := 300, max := 30, keyPrefix := "menu:brand" },
   { max := 10, keyPrefix := "menu:ocr" },
   { max := config.billsMax, keyPrefix := "bills" },
   { keyPrefix := "guest:rl" },
   { keyPrefix := "guest:qrctx" },
   { keyPrefix := "guest:mint" },
   { max := 10, keyPrefix := "guest:order" },
   { windowSeconds := 300, max := 8, keyPrefix := "guest:c2p" }]

/-- `KEY_PREFIX` of `services/guest.js`, before the session's id. -/
def guestKey (sessionId : String) : String := "guest:session" ++ ":" ++ sessionId

/-- What comes of a command. -/
inductive Reply where
  | answered
  /-- It is carried out, and its answer lost. -/
  | lost
  | down
  deriving DecidableEq, Repr

/-- The commands of a request; `ttl` says that the second one of the transaction has not failed. -/
structure LimiterAnswers where
  incr : Reply
  ttl : Bool
  expire : Reply
  deriving DecidableEq, Repr

inductive RateCall where
  /-- `identify(req)`, or what the request is counted under without it. -/
  | request (limiter : Limiter) (identity : Option String) (redis : LimiterAnswers)
  | evict (key : String)
  | elapse (ms : Nat)
  deriving DecidableEq, Repr

inductive RatePhase where
  | begun (call : RateCall)
  /-- The transaction has answered; `unset` says that `EXPIRE` is next. -/
  | counted (limiter : Limiter) (key : String) (hit : Hit) (unset : Bool) (expire : Reply)
  deriving DecidableEq, Repr

inductive RateEvent where
  /-- Redis has counted a request. -/
  | counted (limiter : Limiter) (key : String) (hit : Hit)
  /-- `next()`, with `X-RateLimit-Remaining`. -/
  | passed (limiter : Limiter) (key : String) (hit : Hit) (remaining : Nat)
  | limited (limiter : Limiter) (key : String) (hit : Hit) (err : Err)
  /-- `next()` without a count that is known. -/
  | waved (key : String)
  | unavailable (key : String) (err : Err)
  | skipped
  deriving DecidableEq, Repr

namespace Limiter

def details (l : Limiter) : List (String × String) := [("retryAfterSeconds", toString l.windowSeconds)]

/-- `count > max`, or not. -/
def verdict (l : Limiter) (key : String) (hit : Hit) : RateEvent :=
  if hit.rank > l.max then .limited l key hit (.api .rateLimited "Too many requests" l.details)
  else .passed l key hit (l.max - hit.rank)

/-- The `catch` of the limiter. -/
def caught (l : Limiter) (key : String) : RateEvent :=
  if l.failClosed then .unavailable key (.api .rateLimiterUnavailable "Rate limiter unavailable" l.details)
  else .waved key

end Limiter

/-- The next command. -/
def RatePhase.next (s : Counters String) (_ : List RatePhase) :
    RatePhase → Advance (Counters String) RatePhase RateEvent
  | .begun (.request limiter identity redis) =>
    match identity with
    | none => .ends s [.skipped]
    | some identity =>
      let key := limiter.key identity
      let hit : Hit := ⟨s.now, (s.bumped key).count⟩
      match redis.incr with
      | .answered =>
        .goes (s.incr key) (.counted limiter key hit (!redis.ttl || (s.incr key).ttl key < 0) redis.expire)
          [.counted limiter key hit]
      | .lost => .ends (s.incr key) [.counted limiter key hit, limiter.caught key]
      | .down => .ends s [limiter.caught key]
  | .begun (.evict key) => .ends (s.delete key) []
  | .begun (.elapse ms) => .ends (s.elapse ms) []
  | .counted limiter key hit unset expire =>
    if unset then
      match expire with
      | .answered => .ends (s.expire key limiter.window) [limiter.verdict key hit]
      | .lost => .ends (s.expire key limiter.window) [limiter.caught key]
      | .down => .ends s [limiter.caught key]
    else .ends s [limiter.verdict key hit]

def limiters : Protocol (Counters String) RatePhase RateCall RateEvent := ⟨.begun, RatePhase.next⟩

/-! ## Keys -/

section Keys

/-- No key under one of these prefixes is one under another. -/
theorem key_apart {p p' i i' : String} (h : ¬(p.toList ++ [':']) <+: p'.toList)
    (h' : ¬(p'.toList ++ [':']) <+: p.toList) (hne : p ≠ p') : p ++ ":" ++ i ≠ p' ++ ":" ++ i' := by
  intro heq
  have hlist : p.toList ++ [':'] ++ i.toList = p'.toList ++ [':'] ++ i'.toList := by
    simpa using congrArg String.toList heq
  have hpre : (p.toList ++ [':']) <+: (p'.toList ++ [':']) ++ i'.toList := ⟨i.toList, hlist⟩
  have hpre' : (p'.toList ++ [':']) <+: (p'.toList ++ [':']) ++ i'.toList := ⟨i'.toList, rfl⟩
  rcases Nat.lt_trichotomy p.toList.length p'.toList.length with hlt | hlen | hlt
  · refine h (List.prefix_of_prefix_length_le hpre ?_ (by simpa using hlt))
    rw [List.append_assoc]
    exact List.prefix_append _ _
  · have := List.append_inj_left hlist (by simp [hlen])
    exact hne (String.toList_injective (List.append_inj_left this hlen))
  · refine h' (List.prefix_of_prefix_length_le (hlist ▸ hpre') ?_ (by simpa using hlt))
    rw [List.append_assoc]
    exact List.prefix_append _ _

/-- The prefixes in use, and that of the guest sessions. -/
def keyPrefixes : List String :=
  ["guest:session", "api", "rl:staff", "auth", "bank-inbound-mercantil", "bank-inbound", "admin-auth",
   "orders", "onboard:ip", "onboard:email", "onboard:verify", "webhook", "menu:pdfpub", "menu:imgpub",
   "menu:brandpub", "menu:pdf", "menu:image", "menu:brand", "menu:ocr", "bills", "guest:rl",
   "guest:qrctx", "guest:mint", "guest:order", "guest:c2p"]

variable {config : RateLimitConfig} {l l' : Limiter} {i i' : String}

theorem keyPrefixes_eq (config : RateLimitConfig) :
    keyPrefixes = "guest:session" :: (mounted config).map Limiter.keyPrefix := rfl

theorem keyPrefixes_apart : ∀ p ∈ keyPrefixes, ∀ p' ∈ keyPrefixes, ¬(p.toList ++ [':']) <+: p'.toList := by
  decide +kernel

theorem keyPrefixes_nodup : keyPrefixes.Nodup := by decide +kernel

theorem mem_keyPrefixes (h : l ∈ mounted config) : l.keyPrefix ∈ keyPrefixes := by
  rw [keyPrefixes_eq config]
  exact List.mem_cons_of_mem _ (List.mem_map_of_mem h)

/-- No two limiters share a counter. -/
theorem mounted_keys_apart (hl : l ∈ mounted config) (hl' : l' ∈ mounted config)
    (h : l.key i = l'.key i') : l = l' := by
  by_contra hne
  have hnodup : ((mounted config).map Limiter.keyPrefix).Nodup :=
    (List.nodup_cons.mp (keyPrefixes_eq config ▸ keyPrefixes_nodup)).2
  refine key_apart (keyPrefixes_apart _ (mem_keyPrefixes hl) _ (mem_keyPrefixes hl'))
    (keyPrefixes_apart _ (mem_keyPrefixes hl') _ (mem_keyPrefixes hl)) (fun heq => hne ?_) h
  exact List.inj_on_of_nodup_map hnodup hl hl' heq

/-- No counter has the key of a guest session. -/
theorem mounted_key_ne_guestKey {sessionId : String} (hl : l ∈ mounted config) :
    l.key i ≠ guestKey sessionId := by
  have hguest : "guest:session" ∈ keyPrefixes := List.mem_cons_self
  refine key_apart (keyPrefixes_apart _ (mem_keyPrefixes hl) _ hguest)
    (keyPrefixes_apart _ hguest _ (mem_keyPrefixes hl)) fun heq => ?_
  have hnew := (List.nodup_cons.mp (keyPrefixes_eq config ▸ keyPrefixes_nodup)).1
  exact hnew (heq ▸ List.mem_map_of_mem hl)

end Keys

/-! ## What a command does -/

/-- The count of an event, with its key. -/
def RateEvent.hit? : RateEvent → Option (String × Hit)
  | .counted _ key hit => some (key, hit)
  | _ => none

/-- The counts of a key, in order. -/
def hitsOf (k : String) (trace : List RateEvent) : List Hit :=
  (trace.filterMap RateEvent.hit?).filterMap fun x => if x.1 = k then some x.2 else none

/-- What a command does to the counters, and what it counts. -/
inductive RateEffect (s : Counters String) : RatePhase → Counters String → List (String × Hit) → Prop
  | idle (t : RatePhase) : RateEffect s t s []
  | counts (l : Limiter) (i : String) (redis : LimiterAnswers) :
    RateEffect s (.begun (.request l (some i) redis)) (s.incr (l.key i))
      [(l.key i, ⟨s.now, (s.bumped (l.key i)).count⟩)]
  | expires (l : Limiter) (key : String) (hit : Hit) (expire : Reply) :
    RateEffect s (.counted l key hit true expire) (s.expire key l.window) []
  | evicts (key : String) : RateEffect s (.begun (.evict key)) (s.delete key) []
  | elapses (ms : Nat) : RateEffect s (.begun (.elapse ms)) (s.elapse ms) []

/-- The last command of a call. -/
inductive RateEnd (s : Counters String) : RatePhase → Counters String → List RateEvent → Prop
  | skipped (l : Limiter) (redis : LimiterAnswers) : RateEnd s (.begun (.request l none redis)) s [.skipped]
  | lost (l : Limiter) (i : String) (redis : LimiterAnswers) (incr : redis.incr = .lost) :
    RateEnd s (.begun (.request l (some i) redis)) (s.incr (l.key i))
      [.counted l (l.key i) ⟨s.now, (s.bumped (l.key i)).count⟩, l.caught (l.key i)]
  | down (l : Limiter) (i : String) (redis : LimiterAnswers) (incr : redis.incr = .down) :
    RateEnd s (.begun (.request l (some i) redis)) s [l.caught (l.key i)]
  | evicted (key : String) : RateEnd s (.begun (.evict key)) (s.delete key) []
  | elapsed (ms : Nat) : RateEnd s (.begun (.elapse ms)) (s.elapse ms) []
  | judged (l : Limiter) (key : String) (hit : Hit) (unset : Bool) (expire : Reply)
    (answered : unset = true → expire = .answered) :
    RateEnd s (.counted l key hit unset expire) (if unset then s.expire key l.window else s)
      [l.verdict key hit]
  | broken (l : Limiter) (key : String) (hit : Hit) (expire : Reply) (answered : expire ≠ .answered) :
    RateEnd s (.counted l key hit true expire) (if expire = .down then s else s.expire key l.window)
      [l.caught key]

section Effects

variable {s s' : Counters String} {t t' : RatePhase} {us : List RatePhase} {answer : List RateEvent}
  {L : Limiter} {k : String}

@[simp] theorem hit?_counted (l : Limiter) (key : String) (hit : Hit) :
    (RateEvent.counted l key hit).hit? = some (key, hit) := rfl

@[simp] theorem hit?_verdict (l : Limiter) (key : String) (hit : Hit) : (l.verdict key hit).hit? = none := by
  unfold Limiter.verdict
  split <;> rfl

@[simp] theorem hit?_caught (l : Limiter) (key : String) : (l.caught key).hit? = none := by
  unfold Limiter.caught
  split <;> rfl

/-- Only a request whose count is answered goes on. -/
theorem goes_cases (h : limiters.next s us t = .goes s' t' answer) :
    ∃ l i redis, t = .begun (.request l (some i) redis) ∧ s' = s.incr (l.key i) ∧
      t' = .counted l (l.key i) ⟨s.now, (s.bumped (l.key i)).count⟩
        (!redis.ttl || (s.incr (l.key i)).ttl (l.key i) < 0) redis.expire ∧
      answer = [.counted l (l.key i) ⟨s.now, (s.bumped (l.key i)).count⟩] := by
  change RatePhase.next s us t = _ at h
  cases t with
  | begun call =>
    cases call with
    | request limiter identity redis =>
      cases identity with
      | none => cases h
      | some i =>
        unfold RatePhase.next at h
        dsimp only at h
        split at h
        · cases h
          exact ⟨limiter, i, redis, rfl, rfl, rfl, rfl⟩
        · cases h
        · cases h
    | evict key => cases h
    | elapse ms => cases h
  | counted limiter key hit unset expire =>
    unfold RatePhase.next at h
    dsimp only at h
    split at h
    · split at h <;> cases h
    · cases h

theorem effect_goes (h : limiters.next s us t = .goes s' t' answer) :
    RateEffect s t s' (answer.filterMap RateEvent.hit?) := by
  obtain ⟨l, i, redis, rfl, rfl, -, rfl⟩ := goes_cases h
  exact .counts l i redis

theorem ends_cases (h : limiters.next s us t = .ends s' answer) : RateEnd s t s' answer := by
  change RatePhase.next s us t = _ at h
  cases t with
  | begun call =>
    cases call with
    | request limiter identity redis =>
      cases identity with
      | none =>
        cases h
        exact .skipped limiter redis
      | some i =>
        unfold RatePhase.next at h
        dsimp only at h
        split at h
        · cases h
        · rename_i hlost
          cases h
          exact .lost limiter i redis hlost
        · rename_i hdown
          cases h
          exact .down limiter i redis hdown
    | evict key =>
      cases h
      exact .evicted key
    | elapse ms =>
      cases h
      exact .elapsed ms
  | counted limiter key hit unset expire =>
    unfold RatePhase.next at h
    dsimp only at h
    split at h
    · rename_i hunset
      subst hunset
      split at h <;> cases h
      · exact .judged limiter key hit true .answered fun _ => rfl
      · exact .broken limiter key hit .lost nofun
      · exact .broken limiter key hit .down nofun
    · rename_i hset
      obtain rfl := Bool.not_eq_true _ ▸ hset
      cases h
      exact .judged limiter key hit false expire nofun

theorem effect_ends (h : limiters.next s us t = .ends s' answer) :
    RateEffect s t s' (answer.filterMap RateEvent.hit?) := by
  cases ends_cases h with
  | skipped l redis => exact .idle _
  | lost l i redis => simpa using RateEffect.counts l i redis
  | down l i redis => simpa using RateEffect.idle _
  | evicted key => exact .evicts key
  | elapsed ms => exact .elapses ms
  | judged l key hit unset expire =>
    cases unset with
    | true => simpa using RateEffect.expires l key hit expire
    | false => simpa using RateEffect.idle _
  | broken l key hit expire =>
    by_cases hdown : expire = .down
    · simpa [hdown] using RateEffect.idle (.counted l key hit true .down)
    · simpa [hdown] using RateEffect.expires l key hit expire

/-- No command waits. -/
theorem rate_waits : limiters.next s us t ≠ .waits := by
  intro h
  change RatePhase.next s us t = _ at h
  cases t with
  | begun call =>
    cases call with
    | request limiter identity redis =>
      unfold RatePhase.next at h
      dsimp only at h
      split at h
      · cases h
      · split at h <;> cases h
    | evict key => cases h
    | elapse ms => cases h
  | counted limiter key hit unset expire =>
    unfold RatePhase.next at h
    dsimp only at h
    split at h
    · split at h <;> cases h
    · cases h

/-- A move does what a command does, or nothing. -/
theorem effect_step (w : Sessions (Counters String) RatePhase) (m : Move RateCall) :
    (∃ r, w.running.find? r.id = some r ∧ m = .go r.id ∧
      RateEffect w.committed r.state (limiters.machine.step w m).1.committed
        ((limiters.machine.step w m).2.filterMap RateEvent.hit?)) ∨
    (limiters.machine.step w m).1.committed = w.committed ∧ (limiters.machine.step w m).2 = [] := by
  rcases Protocol.move_cases (p := limiters) w m with ⟨r, hfind, rfl, hcommitted, hanswer⟩ | ⟨hs, ha, -⟩
  · refine .inl ⟨r, hfind, rfl, ?_⟩
    rw [hcommitted, hanswer]
    cases hnext : limiters.next w.committed (w.others r.id) r.state with
    | waits => exact absurd hnext rate_waits
    | goes s' t' answer => exact effect_goes hnext
    | ends s' answer => exact effect_ends hnext
  · exact .inr ⟨hs, ha⟩

end Effects

/-! ## The life of a counter -/

/-- What is counted under `k` is counted by `L`. -/
def RatePhase.Keeps (L : Limiter) (k : String) : RatePhase → Prop
  | .begun (.request l (some i) _) => l.key i = k → l = L
  | .counted l key _ _ _ => key = k → l = L
  | _ => True

/-- Requests come to the limiters of the application. -/
def RateCall.Mounted (config : RateLimitConfig) : RateCall → Prop
  | .request l _ _ => l ∈ mounted config
  | _ => True

instance (config : RateLimitConfig) : ∀ call : RateCall, Decidable (call.Mounted config)
  | .request l _ _ => inferInstanceAs (Decidable (l ∈ mounted config))
  | .evict _ | .elapse _ => isTrue trivial

/-- The counter lives for a window from its first count on, and for no longer than a window from now. -/
structure Windowed (L : Limiter) (k : String) (s : Counters String) : Prop where
  born : ∀ c, s.stored k = some c → c.born ≤ s.now
  expiry : ∀ c e, s.stored k = some c → c.expiry = some e → c.born + L.window ≤ e ∧ e ≤ s.now + L.window

section Life

variable {config : RateLimitConfig} {L : Limiter} {k i : String} {s s' : Counters String}
  {t t' : RatePhase} {us : List RatePhase} {answer : List RateEvent} {hits : List (String × Hit)}

theorem keeps_of_mounted {call : RateCall} (hL : L ∈ mounted config) (h : call.Mounted config) :
    (RatePhase.begun call).Keeps L (L.key i) := by
  cases call with
  | request l identity redis =>
    cases identity with
    | none => trivial
    | some j => exact mounted_keys_apart h hL
  | evict key => trivial
  | elapse ms => trivial

/-- What a command does to the counter of one key, and what it counts there. -/
inductive KeyEffect (L : Limiter) (k : String) (s : Counters String) :
    RatePhase → Counters String → List Hit → Prop
  | aside (t : RatePhase) (s' : Counters String) (now : s'.now = s.now)
    (stored : s'.stored k = s.stored k) : KeyEffect L k s t s' []
  | elapses (ms : Nat) : KeyEffect L k s (.begun (.elapse ms)) (s.elapse ms) []
  | gone (s' : Counters String) (now : s'.now = s.now) (stored : s'.stored k = none) :
    KeyEffect L k s (.begun (.evict k)) s' []
  | first (i : String) (redis : LimiterAnswers) (hi : L.key i = k) (none : s.get k = none)
    (stored : (s.incr k).stored k = some ⟨1, s.now, .none⟩) :
    KeyEffect L k s (.begun (.request L (some i) redis)) (s.incr k) [⟨s.now, 1⟩]
  | another (i : String) (redis : LimiterAnswers) (c : Counter) (hi : L.key i = k) (some : s.get k = some c)
    (stored : (s.incr k).stored k = .some { c with count := c.count + 1 }) :
    KeyEffect L k s (.begun (.request L (.some i) redis)) (s.incr k) [⟨s.now, c.count + 1⟩]
  | renewed (hit : Hit) (expire : Reply) (s' : Counters String) (c : Counter) (now : s'.now = s.now)
    (some : s.get k = some c)
    (stored : s'.stored k = .some { c with expiry := .some (s.now + L.window) }) :
    KeyEffect L k s (.counted L k hit true expire) s' []

theorem RateEffect.at_key (h : RateEffect s t s' hits) (ht : t.Keeps L k) :
    KeyEffect L k s t s' (hits.filterMap fun x => if x.1 = k then some x.2 else none) := by
  cases h with
  | idle => exact .aside _ _ rfl rfl
  | counts l i redis =>
    by_cases hk : l.key i = k
    · obtain rfl := ht hk
      subst hk
      cases hget : s.get (l.key i) with
      | none =>
        have hnew := Counters.bumped_of_none hget
        simpa [hnew] using KeyEffect.first (L := l) i redis rfl hget (by simp [hnew])
      | some c =>
        have hnew := Counters.bumped_of_some hget
        simpa [hnew] using KeyEffect.another (L := l) i redis c rfl hget (by simp [hnew])
    · have hother := Counters.stored_incr_other (s := s) (Ne.symm hk)
      have haside : KeyEffect L k s (.begun (.request l (some i) redis)) (s.incr (l.key i)) [] :=
        .aside _ _ rfl hother
      simpa [hk] using haside
  | expires l key hit expire =>
    by_cases hk : key = k
    · obtain rfl := ht hk
      subst hk
      cases hget : s.get key with
      | none =>
        rw [Counters.stored_expire_of_none hget]
        exact .aside _ _ rfl rfl
      | some c =>
        exact .renewed hit expire _ c Counters.now_expire hget (Counters.stored_expire_of_some hget)
    · exact .aside _ _ Counters.now_expire (Counters.stored_expire_other (Ne.symm hk))
  | evicts key =>
    by_cases hk : key = k
    · subst hk
      exact .gone _ rfl Counters.stored_delete_self
    · exact .aside _ _ rfl (Counters.stored_delete_other (Ne.symm hk))
  | elapses ms => exact .elapses ms

theorem windowed_of_none (hs : s.stored k = none) : Windowed L k s :=
  ⟨fun c hc => by simp [hs] at hc, fun c e hc => by simp [hs] at hc⟩

theorem Windowed.effect {hits : List Hit} (h : Windowed L k s) (heff : KeyEffect L k s t s' hits) :
    Windowed L k s' := by
  cases heff with
  | aside _ _ hnow hsame =>
    refine ⟨fun c hc => ?_, fun c e hc he => ?_⟩
    · rw [hnow]
      exact h.born c (hsame ▸ hc)
    · rw [hnow]
      exact h.expiry c e (hsame ▸ hc) he
  | elapses ms =>
    refine ⟨fun c hc => (h.born c hc).trans (Nat.le_add_right _ _), fun c e hc he => ?_⟩
    obtain ⟨hborn, hnow⟩ := h.expiry c e hc he
    rw [Counters.now_elapse]
    exact ⟨hborn, by omega⟩
  | gone _ _ hnone => exact ⟨fun c hc => by simp [hnone] at hc, fun c e hc => by simp [hnone] at hc⟩
  | first i redis hi hnone hnew =>
    refine ⟨fun c hc => ?_, fun c e hc he => ?_⟩ <;> rw [hnew] at hc <;> cases hc
    · exact le_rfl
    · cases he
  | another i redis c hi hget hnew =>
    have hc := (Counters.get_eq_some.mp hget).1
    refine ⟨fun c' hc' => ?_, fun c' e hc' he => ?_⟩ <;> rw [hnew] at hc' <;> cases hc'
    · exact h.born c hc
    · exact h.expiry c e hc he
  | renewed hit expire _ c hnow hget hnew =>
    have hborn := h.born c (Counters.get_eq_some.mp hget).1
    refine ⟨fun c' hc' => ?_, fun c' e hc' he => ?_⟩ <;> rw [hnew] at hc' <;> cases hc' <;> rw [hnow]
    · exact hborn
    · cases he
      exact ⟨Nat.add_le_add_right hborn _, le_rfl⟩

theorem keeps_goes (ht : t.Keeps L k) (h : limiters.next s us t = .goes s' t' answer) : t'.Keeps L k := by
  obtain ⟨l, i, redis, rfl, -, rfl, -⟩ := goes_cases h
  exact ht

/-- No request begins behind another command. -/
theorem begun_next {call : RateCall} (h : limiters.next s us t = .goes s' (.begun call) answer) : False := by
  obtain ⟨l, i, redis, -, -, hnext, -⟩ := goes_cases h
  cases hnext

/-- Every command keeps the counter windowed. -/
theorem limiterRule (L : Limiter) (k : String) :
    limiters.Rule (fun call => (RatePhase.begun call).Keeps L k) (fun _ _ _ => True) (Windowed L k)
      (fun _ t => t.Keeps L k) fun _ _ => True where
  symm _ _ _ := trivial
  start _ _ _ hcall := ⟨hcall, fun _ _ => trivial⟩
  goes _ _ _ hs ht hus _ _ _ _ h :=
    ⟨hs.effect ((effect_goes h).at_key ht), keeps_goes ht h, fun u hu => ⟨(hus u hu).1, trivial⟩⟩
  ends _ _ _ hs ht hus _ _ _ h := ⟨hs.effect ((effect_ends h).at_key ht), fun u hu => (hus u hu).1⟩

/-- The life that a counter is in, as far as it is there; `E` says that it may be evicted. -/
def Tracks (E : Prop) (k : String) (s : Counters String) : Option Life → Prop
  | none => s.stored k = none
  | some l => l.last ≤ s.now ∧ (s.stored k = none → E) ∧
    ∀ c, s.stored k = some c → c.count = l.count ∧ c.born = l.born

variable {E : Prop} {C R : Life → Nat → Prop} {l : Option Life}

/-- A command goes on with the life of the counter, or begins another. -/
theorem Tracks.effect {hits : List Hit} (h : Tracks E k s l) (heff : KeyEffect L k s t s' hits)
    (hevict : t = .begun (.evict k) → E)
    (hC : ∀ c l, s.get k = some c → l.born = c.born → C l s.now)
    (hR : ∀ c l, s.get k = none → s.stored k = some c → l.born = c.born → R l s.now)
    (hE : E → ∀ l t, R l t) :
    ∃ l', Tracks E k s' l' ∧ ∀ rest, Lives C R l' rest → Lives C R l (hits ++ rest) := by
  cases heff with
  | aside _ _ hnow hsame =>
    refine ⟨l, ?_, fun _ => id⟩
    cases l with
    | none => exact hsame.trans h
    | some l => exact ⟨hnow ▸ h.1, fun hnone => h.2.1 (hsame ▸ hnone), fun c hc => h.2.2 c (hsame ▸ hc)⟩
  | elapses ms =>
    refine ⟨l, ?_, fun _ => id⟩
    cases l with
    | none => exact h
    | some l => exact ⟨h.1.trans (Nat.le_add_right _ _), h.2⟩
  | gone _ hnow hnone =>
    refine ⟨l, ?_, fun _ => id⟩
    cases l with
    | none => exact hnone
    | some l => exact ⟨hnow ▸ h.1, fun _ => hevict rfl, fun c hc => by simp [hnone] at hc⟩
  | first i redis hi hnone hnew =>
    refine ⟨some (.begin s.now), ⟨le_rfl, fun h => ?_, fun c hc => ?_⟩, fun rest hrest => ?_⟩
    · simp at h
    · rw [hnew] at hc
      cases hc
      exact ⟨rfl, rfl⟩
    · cases l with
      | none => exact ⟨rfl, hrest⟩
      | some l =>
        refine ⟨h.1, .inr ⟨?_, rfl, hrest⟩⟩
        cases hc : s.stored k with
        | none => exact hE (h.2.1 hc) l s.now
        | some c => exact hR c l hnone hc (h.2.2 c hc).2.symm
  | another i redis c hi hget hnew =>
    have hc := (Counters.get_eq_some.mp hget).1
    cases l with
    | none => exact absurd (hc.symm.trans h) (by simp)
    | some l =>
      obtain ⟨hcount, hborn⟩ := h.2.2 c hc
      refine ⟨some (l.goOn s.now), ⟨le_rfl, fun h => ?_, fun c' hc' => ?_⟩, fun rest hrest => ?_⟩
      · simp at h
      · rw [hnew] at hc'
        cases hc'
        exact ⟨congrArg (· + 1) hcount, hborn⟩
      · exact ⟨h.1, .inl ⟨hC c l hget hborn.symm, congrArg (· + 1) hcount, hrest⟩⟩
  | renewed hit expire _ c hnow hget hnew =>
    refine ⟨l, ?_, fun _ => id⟩
    have hc := (Counters.get_eq_some.mp hget).1
    cases l with
    | none => exact absurd (hc.symm.trans h) (by simp)
    | some l =>
      refine ⟨hnow ▸ h.1, fun h => by simp [hnew] at h, fun c' hc' => ?_⟩
      rw [hnew] at hc'
      cases hc'
      exact h.2.2 c hc

/-- What is counted under a key is a sequence of lives. -/
theorem lives_run {I : Sessions (Counters String) RatePhase → Prop}
    {G : Sessions (Counters String) RatePhase → Move RateCall → Prop}
    (hI : ∀ w m, I w → G w m → I (limiters.machine.step w m).1)
    (hkeeps : ∀ w, I w → ∀ r ∈ w.running, r.state.Keeps L k ∧ (r.state = .begun (.evict k) → E))
    (hC : ∀ w c l, I w → w.committed.get k = some c → l.born = c.born → C l w.committed.now)
    (hR : ∀ w c l, I w → w.committed.get k = none → w.committed.stored k = some c → l.born = c.born →
      R l w.committed.now)
    (hE : E → ∀ l t, R l t) {w : Sessions (Counters String) RatePhase} {moves : List (Move RateCall)}
    (hw : I w) (hl : Tracks E k w.committed l) (hG : limiters.machine.Every G w moves) :
    Lives C R l (hitsOf k (limiters.machine.outputs w moves)) := by
  induction moves generalizing w l with
  | nil => cases l <;> trivial
  | cons m moves ih =>
    have hnext := hI w m hw hG.1
    have hsplit : hitsOf k (limiters.machine.outputs w (m :: moves)) =
        hitsOf k (limiters.machine.step w m).2 ++
          hitsOf k (limiters.machine.outputs (limiters.machine.step w m).1 moves) := by
      simp only [hitsOf, Machine.outputs, List.filterMap_append]
    rw [hsplit]
    rcases effect_step w m with ⟨r, hfind, -, heff⟩ | ⟨hsame, hnone⟩
    · obtain ⟨hr, hevict⟩ := hkeeps w hw r (Table.find?_mem hfind)
      obtain ⟨l', hl', hlives⟩ := hl.effect (heff.at_key hr) hevict (fun c l => hC w c l hw)
        (fun c l => hR w c l hw) hE
      exact hlives _ (ih hnext hl' hG.2)
    · rw [hnone]
      exact ih hnext (hsame ▸ hl) hG.2

end Life

/-! ## How many pass -/

/-- A count of `k` that satisfies `P`. -/
def counts (k : String) (P : Hit → Bool) : RateEvent → Bool
  | .counted _ key hit => key = k && P hit
  | _ => false

/-- A request that passes, and was counted within `W` from `t`. -/
def passedWithin (k : String) (t W : Time) : RateEvent → Bool
  | .passed _ key hit _ => key = k && (t ≤ hit.time && hit.time ≤ t + W)
  | _ => false

/-- The counts that a request under way rests on. -/
def RatePhase.held (k : String) (P : Hit → Bool) : RatePhase → Nat
  | .counted _ key hit _ _ => if key = k && P hit then 1 else 0
  | _ => 0

section Bound

variable {config : RateLimitConfig} {L : Limiter} {k i : String} {s s' : Counters String}
  {t t' : RatePhase} {us : List RatePhase} {answer : List RateEvent} {moves : List (Move RateCall)}

theorem countP_hitsOf (P : Hit → Bool) (trace : List RateEvent) :
    (hitsOf k trace).countP P = trace.countP (counts k P) := by
  induction trace with
  | nil => rfl
  | cons e trace ih =>
    rw [List.countP_cons, ← ih]
    cases e with
    | counted l key hit =>
      by_cases hk : key = k
      · simp [hitsOf, counts, hk, List.countP_cons]
      · simp [hitsOf, counts, hk]
    | _ => rfl

/-- Answers that are no counts, and that a request gives last when its count satisfies `P`, are backed by
such counts. -/
theorem backed_counts (P : Hit → Bool) (spends : RateEvent → Bool)
    (hcounted : ∀ l key hit, spends (.counted l key hit) = false) (hskipped : spends .skipped = false)
    (hcaught : ∀ l key, spends (Limiter.caught l key) = false)
    (hverdict : ∀ l key hit, (key = k → l = L) → spends (Limiter.verdict l key hit) = true →
      key = k ∧ P hit = true) :
    limiters.Backed (fun call => (RatePhase.begun call).Keeps L k) (fun t => t.Keeps L k) spends
      (counts k P) (RatePhase.held k P) where
  start _ h := ⟨h, rfl⟩
  goes s us t s' t' answer ht h := by
    refine ⟨keeps_goes ht h, ?_⟩
    obtain ⟨l, i, redis, rfl, -, rfl, rfl⟩ := goes_cases h
    simp [hcounted, counts, RatePhase.held, List.countP_cons]
  ends s us t s' answer ht h := by
    cases ends_cases h with
    | skipped l redis => simp [hskipped]
    | lost l i redis => simp [hcounted, hcaught]
    | down l i redis => simp [hcaught]
    | evicted key => exact Nat.zero_le _
    | elapsed ms => exact Nat.zero_le _
    | judged l key hit unset expire =>
      by_cases hspends : spends (l.verdict key hit) = true
      · obtain ⟨rfl, hP⟩ := hverdict l key hit ht hspends
        simp [RatePhase.held, hspends, hP]
      · simp [hspends]
    | broken l key hit expire => simp [hcaught]

theorem passedWithin_verdict {l : Limiter} {key : String} {hit : Hit} {t W : Time} (hk : key = k → l = L)
    (h : passedWithin k t W (l.verdict key hit) = true) :
    key = k ∧ Lives.within L.max t W hit = true := by
  unfold Limiter.verdict at h
  split at h
  · cases h
  · rename_i hrank
    simp only [passedWithin, Bool.and_eq_true, decide_eq_true_eq] at h
    obtain ⟨rfl, hfrom, hto⟩ := h
    obtain rfl := hk rfl
    simp only [Lives.within, Bool.and_eq_true, decide_eq_true_eq]
    exact ⟨trivial, ⟨hfrom, hto⟩, not_lt.mp hrank⟩

/-- The counter of an identity that nothing evicts: its counts begin anew only behind a window. -/
theorem lives_of_mounted (hmoves : ∀ id call, .start id call ∈ moves →
      (RatePhase.begun call).Keeps L k ∧ call ≠ .evict k) (hs : s.stored k = none) :
    Lives (fun _ _ => True) (fun l t => l.born + L.window < t) none
      (hitsOf k (limiters.machine.outputs (Sessions.start s) moves)) := by
  have hrule : limiters.Rule (fun call => (RatePhase.begun call).Keeps L k ∧ call ≠ .evict k)
      (fun _ _ _ => True) (Windowed L k) (fun _ t => t.Keeps L k ∧ t ≠ .begun (.evict k))
      fun _ _ => True := by
    refine ⟨fun _ _ _ => trivial, fun _ call _ hcall => ⟨⟨hcall.1, fun h => hcall.2 ?_⟩, fun _ _ => trivial⟩,
      fun s us t hs ht hus _ s' t' answer h => ?_, fun s us t hs ht hus _ s' answer h => ?_⟩
    · exact RatePhase.begun.inj h
    · refine ⟨hs.effect ((effect_goes h).at_key ht.1), ⟨keeps_goes ht.1 h, ?_⟩,
        fun u hu => ⟨(hus u hu).1, trivial⟩⟩
      rintro rfl
      exact begun_next h
    · exact ⟨hs.effect ((effect_ends h).at_key ht.1), fun u hu => (hus u hu).1⟩
  refine lives_run (E := False) hrule.step (fun w hw r hr => ⟨(hw.session r hr).1, (hw.session r hr).2⟩)
    (fun _ _ _ _ _ _ => trivial) (fun w c l hw hnone hc hborn => ?_) (fun h => h.elim)
    (Protocol.Holds.start (windowed_of_none hs)) hs (Protocol.every_allowed hmoves)
  obtain ⟨e, he, hlt⟩ := Counters.get_eq_none.mp hnone c hc
  rw [hborn]
  exact (hw.committed.expiry c e hc he).1.trans_lt hlt

/-- Who is waved through has come to a limiter that fails open. -/
theorem waved_keeps (ht : t.Keeps L k) (h : .waved k ∈ (limiters.next s us t).answer) :
    L.failClosed = false := by
  have hcaught : ∀ l key, .waved k = Limiter.caught l key → key = k ∧ l.failClosed = false := by
    intro l key heq
    unfold Limiter.caught at heq
    split at heq
    · cases heq
    · rename_i hopen
      cases heq
      exact ⟨rfl, by simpa using hopen⟩
  have hverdict : ∀ l key hit, .waved k ≠ Limiter.verdict l key hit := by
    intro l key hit heq
    unfold Limiter.verdict at heq
    split at heq <;> cases heq
  cases hnext : limiters.next s us t with
  | waits => exact absurd hnext rate_waits
  | goes s' t' answer =>
    obtain ⟨l, i, redis, -, -, -, rfl⟩ := goes_cases hnext
    simp [hnext, Advance.answer] at h
  | ends s' answer =>
    rw [hnext] at h
    cases ends_cases hnext with
    | skipped l redis => simp [Advance.answer] at h
    | lost l i redis =>
      obtain ⟨hk, hopen⟩ := hcaught l (l.key i) (by simpa [Advance.answer] using h)
      exact ht hk ▸ hopen
    | down l i redis =>
      obtain ⟨hk, hopen⟩ := hcaught l (l.key i) (by simpa [Advance.answer] using h)
      exact ht hk ▸ hopen
    | evicted key => simp [Advance.answer] at h
    | elapsed ms => simp [Advance.answer] at h
    | judged l key hit unset expire =>
      exact absurd (by simpa [Advance.answer] using h) (hverdict l key hit)
    | broken l key hit expire =>
      obtain ⟨hk, hopen⟩ := hcaught l key (by simpa [Advance.answer] using h)
      exact ht hk ▸ hopen

/-- A limiter that fails closed waves no request through. -/
theorem not_waved (hmoves : ∀ id call, .start id call ∈ moves → (RatePhase.begun call).Keeps L k)
    (hclosed : L.failClosed = true) (hs : Windowed L k s) :
    .waved k ∉ limiters.machine.outputs (Sessions.start s) moves := by
  have hall : ∀ e ∈ limiters.machine.outputs (Sessions.start s) moves, e ≠ .waved k := by
    refine Machine.forall_outputs (limiterRule L k).step (fun w m hw _ e he => ?_) (Protocol.Holds.start hs)
      (Protocol.every_allowed hmoves)
    obtain ⟨id, r, -, hfind, hmem⟩ := Protocol.answer_mem he
    have hkeeps := hw.session r (Table.find?_mem hfind)
    rintro rfl
    exact absurd hclosed (by simp [waved_keeps hkeeps hmem])
  exact fun hmem => hall _ hmem rfl

/-- Of an identity's requests that are counted within a window, a limiter passes at most `2 * max - 1`; and
it lets through no other, when it fails closed. -/
theorem limiter_bounds (hL : L ∈ mounted config) (hs : s.stored (L.key i) = none)
    (hmoves : ∀ id call, .start id call ∈ moves → call.Mounted config ∧ call ≠ .evict (L.key i)) (t : Time) :
    (limiters.machine.outputs (Sessions.start s) moves).countP (passedWithin (L.key i) t L.window) ≤
        2 * L.max - 1 ∧
      (L.failClosed = true → .waved (L.key i) ∉ limiters.machine.outputs (Sessions.start s) moves) := by
  have hkeeps : ∀ id call, .start id call ∈ moves → (RatePhase.begun call).Keeps L (L.key i) :=
    fun id call hm => keeps_of_mounted hL (hmoves id call hm).1
  have hlives := lives_of_mounted (k := L.key i)
    (fun id call hm => ⟨hkeeps id call hm, (hmoves id call hm).2⟩) hs
  have hwindow := hlives.countP_le (m := L.max) (t := t) (W := L.window) fun _ _ => id
  rw [countP_hitsOf] at hwindow
  have hbacked := backed_counts (L := L) (k := L.key i) (Lives.within L.max t L.window)
    (passedWithin (L.key i) t L.window) (fun _ _ _ => rfl) rfl
    (fun l key => by unfold Limiter.caught; split <;> rfl) fun l key hit => passedWithin_verdict
  exact ⟨(hbacked.run hkeeps).trans hwindow, fun hclosed => not_waved hkeeps hclosed (windowed_of_none hs)⟩

end Bound

/-! ## Waiting -/

/-- The call is at a command on `k`. -/
def RatePhase.On (k : String) : RatePhase → Prop
  | .begun (.request l (some i) _) => l.key i = k
  | .counted _ key _ _ _ => key = k
  | _ => False

instance (k : String) : ∀ t : RatePhase, Decidable (t.On k)
  | .begun (.request l (some i) _) => inferInstanceAs (Decidable (l.key i = k))
  | .counted _ key _ _ _ => inferInstanceAs (Decidable (key = k))
  | .begun (.request _ none _) | .begun (.evict _) | .begun (.elapse _) => isFalse id

/-- No call but this one runs a command on `k`. -/
def OnlyBy (k : String) (id : Nat) (w : Sessions (Counters String) RatePhase) : Move RateCall → Prop
  | .go id' => ∀ r ∈ w.running.find? id', r.state.On k → id' = id
  | _ => True

instance (k : String) (id : Nat) (w : Sessions (Counters String) RatePhase) :
    ∀ m, Decidable (OnlyBy k id w m)
  | .go id' => inferInstanceAs (Decidable (∀ r ∈ w.running.find? id', r.state.On k → id' = id))
  | .start _ _ | .abort _ => isTrue trivial

section Waiting

variable {L : Limiter} {k i : String} {s s' : Counters String} {t t' : RatePhase} {id : Nat}
  {w : Sessions (Counters String) RatePhase} {m : Move RateCall} {before after : List (Move RateCall)}

/-- The counter is gone, or it is at the latest at `T`. -/
def DueBy (k : String) (T : Time) (s : Counters String) : Prop :=
  ∀ c, s.stored k = some c → ∃ e, c.expiry = some e ∧ e ≤ T

/-- Where a call is that counts a request of `k` and is answered. -/
inductive Underway (L : Limiter) (k : String) (s : Counters String) : RatePhase → Prop
  | begun (i : String) (redis : LimiterAnswers) (hi : L.key i = k) (incr : redis.incr = .answered)
    (expire : redis.expire = .answered) : Underway L k s (.begun (.request L (some i) redis))
  | counted (hit : Hit) (unset : Bool)
    (set : unset = false → ∀ c, s.stored k = some c → c.expiry ≠ none) :
    Underway L k s (.counted L k hit unset .answered)

/-- A call that runs no command on the key leaves the counter as it is, or evicts it. -/
theorem KeyEffect.off {hits : List Hit} (h : KeyEffect L k s t s' hits) (ht : ¬t.On k) :
    s.now ≤ s'.now ∧ ∀ c, s'.stored k = some c → s.stored k = some c := by
  cases h with
  | aside _ _ hnow hsame => exact ⟨hnow.ge, fun c hc => hsame ▸ hc⟩
  | elapses ms => exact ⟨Nat.le_add_right _ _, fun c hc => hc⟩
  | gone _ hnow hnone => exact ⟨hnow.ge, fun c hc => by simp [hnone] at hc⟩
  | first i redis hi => exact absurd hi ht
  | another i redis c hi => exact absurd hi ht
  | renewed => exact absurd rfl ht

/-- The call's own command: it stays under way, or leaves a counter that is due. -/
theorem underway_next (h : Underway L k s t) (hs : Windowed L k s) (us : List RatePhase) :
    (∃ s' t' answer, limiters.next s us t = .goes s' t' answer ∧ Underway L k s' t') ∨
      ∃ s' answer, limiters.next s us t = .ends s' answer ∧ DueBy k (s'.now + L.window) s' := by
  cases h with
  | begun i redis hi hincr hexpire =>
    refine .inl ⟨s.incr k, _, [.counted L k ⟨s.now, (s.bumped k).count⟩], ?_,
      .counted ⟨s.now, (s.bumped k).count⟩ (!redis.ttl || (s.incr k).ttl k < 0) fun hset c hc => ?_⟩
    · subst hi
      simp only [limiters, RatePhase.next, hincr, hexpire]
    · simp only [Bool.or_eq_false_iff, decide_eq_false_iff_not] at hset
      rw [Counters.stored_incr_self] at hc
      cases hc
      exact fun hnone => hset.2 ((Counters.ttl_neg Counters.get_incr_self).mpr hnone)
  | counted hit unset hset =>
    refine .inr ?_
    cases unset with
    | true =>
      refine ⟨s.expire k L.window, _, rfl, fun c hc => ?_⟩
      rw [Counters.now_expire]
      cases hget : s.get k with
      | none =>
        rw [Counters.stored_expire_of_none hget] at hc
        obtain ⟨e, he, hlt⟩ := Counters.get_eq_none.mp hget c hc
        exact ⟨e, he, hlt.le.trans (Nat.le_add_right _ _)⟩
      | some c' =>
        rw [Counters.stored_expire_of_some hget] at hc
        cases hc
        exact ⟨_, rfl, le_rfl⟩
    | false =>
      refine ⟨s, _, rfl, fun c hc => ?_⟩
      obtain ⟨e, he⟩ := Option.ne_none_iff_exists'.mp (hset rfl c hc)
      exact ⟨e, he, (hs.expiry c e hc he).2⟩

/-- The call is under way, or it is over and the counter due. -/
def Answering (L : Limiter) (k : String) (id : Nat) (w : Sessions (Counters String) RatePhase) : Prop :=
  (∃ t, w.running.find? id = some ⟨id, t⟩ ∧ Underway L k w.committed t) ∨
    w.running.find? id = none ∧ DueBy k (w.committed.now + L.window) w.committed

theorem Underway.off (h : Underway L k s t) (hoff : ∀ c, s'.stored k = some c → s.stored k = some c) :
    Underway L k s' t := by
  cases h with
  | begun i redis hi hincr hexpire => exact .begun i redis hi hincr hexpire
  | counted hit unset hset => exact .counted hit unset fun hunset c hc => hset hunset c (hoff c hc)

/-- A move of another call leaves the counter as it is, or evicts it. -/
theorem off_step (hw : ∀ r ∈ w.running, r.state.Keeps L k)
    (hoff : ∀ r, m = .go r.id → w.running.find? r.id = some r → ¬r.state.On k) :
    w.committed.now ≤ (limiters.machine.step w m).1.committed.now ∧
      ∀ c, (limiters.machine.step w m).1.committed.stored k = some c → w.committed.stored k = some c := by
  rcases effect_step w m with ⟨r, hfind, hm, heff⟩ | ⟨hsame, -⟩
  · exact (heff.at_key (hw r (Table.find?_mem hfind))).off (hoff r hm hfind)
  · rw [hsame]
    exact ⟨le_rfl, fun c hc => hc⟩

/-- Until the call is over it is under way; then the counter is due. -/
theorem answering_step (hw : Protocol.Holds (Windowed L k) (fun _ t => t.Keeps L k) (fun _ _ => True) w)
    (h : Answering L k id w) (honly : OnlyBy k id w m) (hstart : ∀ call, m ≠ .start id call)
    (habort : m ≠ .abort id) : Answering L k id (limiters.machine.step w m).1 := by
  rcases h with ⟨t, hfind, ht⟩ | ⟨hnone, hdue⟩
  · by_cases hm : m = .go id
    · subst hm
      rcases underway_next ht hw.committed (w.others id) with
        ⟨s', t', answer, hnext, ht'⟩ | ⟨s', answer, hnext, hdue⟩
      · refine .inl ⟨t', Protocol.running_goes hfind hnext, ?_⟩
        rw [Protocol.committed_go hfind]
        simp only [hnext, Advance.committed]
        exact ht'
      · refine .inr ⟨Protocol.running_ends hfind hnext, ?_⟩
        rw [Protocol.committed_go hfind]
        simp only [hnext, Advance.committed]
        exact hdue
    · refine .inl ⟨t, Protocol.running_idle hm habort hfind, ht.off (off_step hw.session ?_).2⟩
      rintro r rfl hr hon
      exact hm (congrArg _ (honly r hr hon))
  · obtain ⟨hnow, hoff⟩ := off_step (m := m) hw.session fun r hgo hr hon => by
      subst hgo
      have hid : r.id = id := honly r hr hon
      rw [hid, hnone] at hr
      cases hr
    refine .inr ⟨Protocol.running_none hnone hstart, fun c hc => ?_⟩
    obtain ⟨e, he, hle⟩ := hdue c (hoff c hc)
    exact ⟨e, he, hle.trans (Nat.add_le_add_right hnow _)⟩

/-- The calls that begin are mounted, and none of them takes this id. -/
def Besides (config : RateLimitConfig) (id : Nat) (moves : List (Move RateCall)) : Prop :=
  ∀ id' call, .start id' call ∈ moves → call.Mounted config ∧ id' ≠ id

variable {config : RateLimitConfig} {moves : List (Move RateCall)}

theorem Besides.step (h : Besides config id (m :: moves)) (hL : L ∈ mounted config)
    (hw : Protocol.Holds (Windowed L (L.key i)) (fun _ t => t.Keeps L (L.key i)) (fun _ _ => True) w) :
    Protocol.Holds (Windowed L (L.key i)) (fun _ t => t.Keeps L (L.key i)) (fun _ _ => True)
        (limiters.machine.step w m).1 ∧
      (∀ call, m ≠ .start id call) ∧ Besides config id moves := by
  refine ⟨(limiterRule L (L.key i)).step w m hw ?_, ?_,
    fun id' call hm => h id' call (List.mem_cons_of_mem _ hm)⟩
  · cases m with
    | start id' call => exact keeps_of_mounted hL (h id' call List.mem_cons_self).1
    | go id' => exact fun _ _ => trivial
    | abort id' => trivial
  · rintro call rfl
    exact (h id call List.mem_cons_self).2 rfl

theorem answering_run (hL : L ∈ mounted config)
    (hw : Protocol.Holds (Windowed L (L.key i)) (fun _ t => t.Keeps L (L.key i)) (fun _ _ => True) w)
    (h : Answering L (L.key i) id w) (hmoves : Besides config id moves) (habort : .abort id ∉ moves)
    (honly : limiters.machine.Every (OnlyBy (L.key i) id) w moves) :
    Protocol.Holds (Windowed L (L.key i)) (fun _ t => t.Keeps L (L.key i)) (fun _ _ => True)
        (limiters.machine.run w moves) ∧ Answering L (L.key i) id (limiters.machine.run w moves) := by
  induction moves generalizing w with
  | nil => exact ⟨hw, h⟩
  | cons m moves ih =>
    obtain ⟨hw', hstart, hmoves'⟩ := hmoves.step hL hw
    refine ih hw' (answering_step hw h honly.1 hstart ?_) hmoves'
      (fun hm => habort (List.mem_cons_of_mem _ hm)) honly.2
    rintro rfl
    exact habort List.mem_cons_self

/-- What is due stays so, while nobody counts. -/
theorem dueBy_run {T : Time} (hL : L ∈ mounted config)
    (hw : Protocol.Holds (Windowed L (L.key i)) (fun _ t => t.Keeps L (L.key i)) (fun _ _ => True) w)
    (hover : w.running.find? id = none) (hdue : DueBy (L.key i) T w.committed)
    (hmoves : Besides config id moves) (honly : limiters.machine.Every (OnlyBy (L.key i) id) w moves) :
    DueBy (L.key i) T (limiters.machine.run w moves).committed := by
  induction moves generalizing w with
  | nil => exact hdue
  | cons m moves ih =>
    obtain ⟨hw', hstart, hmoves'⟩ := hmoves.step hL hw
    obtain ⟨-, hoff⟩ := off_step (m := m) hw.session fun r hgo hr hon => by
      subst hgo
      have hid : r.id = id := honly.1 r hr hon
      rw [hid, hover] at hr
      cases hr
    exact ih hw' (Protocol.running_none hover hstart) (fun c hc => hdue c (hoff c hc)) hmoves' honly.2

/-- Behind a call that has been answered, and a window in which no other is made, the counter is gone: the
next count is the first. -/
theorem waited_out (config : RateLimitConfig) (id : Nat) (redis : LimiterAnswers)
    (early before after : List (Move RateCall)) (hL : L ∈ mounted config)
    (hs : Windowed L (L.key i) s)
    (hearly : ∀ id' call, .start id' call ∈ early → call.Mounted config)
    (hw : limiters.machine.run (Sessions.start s) early = w)
    (hfind : w.running.find? id = some ⟨id, .begun (.request L (some i) redis)⟩)
    (hincr : redis.incr = .answered) (hexpire : redis.expire = .answered)
    (hmoves : Besides config id (before ++ after)) (habort : .abort id ∉ before)
    (honly : limiters.machine.Every (OnlyBy (L.key i) id) w before)
    (hover : (limiters.machine.run w before).running.find? id = none)
    (honly' : limiters.machine.Every (OnlyBy (L.key i) id) (limiters.machine.run w before) after)
    (hwait : (limiters.machine.run w before).committed.now + L.window <
      (limiters.machine.run (limiters.machine.run w before) after).committed.now) :
    ((limiters.machine.run (limiters.machine.run w before) after).committed.bumped (L.key i)).count = 1 := by
  have hholds := (limiterRule L (L.key i)).run (Protocol.Holds.start hs)
    (Protocol.every_allowed (p := limiters) fun id' call hm => keeps_of_mounted hL (hearly id' call hm))
  rw [hw] at hholds
  have hbegun : Answering L (L.key i) id w := .inl ⟨_, hfind, .begun i redis rfl hincr hexpire⟩
  obtain ⟨hw', ⟨t, hfind', -⟩ | ⟨-, hdue⟩⟩ := answering_run hL hholds hbegun
    (fun id' call hm => hmoves id' call (List.mem_append_left _ hm)) habort honly
  · rw [hover] at hfind'
    cases hfind'
  · have hgone := dueBy_run hL hw' hover hdue
      (fun id' call hm => hmoves id' call (List.mem_append_right _ hm)) honly'
    rw [Counters.bumped_of_none]
    refine Counters.get_eq_none.mpr fun c hc => ?_
    obtain ⟨e, he, hle⟩ := hgone c hc
    exact ⟨e, he, hle.trans_lt hwait⟩

end Waiting

/-! ## Who is refused -/

/-- When a call counted `k`, while it has still to send `EXPIRE`. -/
def RatePhase.due (k : String) : RatePhase → Option Nat
  | .counted _ key hit true _ => if key = k then some hit.time else none
  | _ => none

theorem due_counted {k key : String} {l : Limiter} {hit : Hit} {unset : Bool} {expire : Reply} :
    (RatePhase.counted l key hit unset expire).due k =
      if unset = true ∧ key = k then some hit.time else none := by
  cases unset <;> simp [RatePhase.due]

/-- What a command on `k` has to meet for the counter to live hardly longer than a window: `TTL` answers,
an `INCR` whose answer is lost finds a time to live, and `EXPIRE` comes through within `D`. -/
def Prompt (k : String) (D : Nat) (s : Counters String) (us : List RatePhase) : RatePhase → Prop
  | .begun (.request l (some i) redis) => l.key i = k →
    redis.ttl = true ∧ (redis.incr = .lost → ∃ c ∈ s.get k, c.expiry ≠ none)
  | .begun (.elapse ms) => ∀ u ∈ us, ∀ time ∈ u.due k, s.now + ms ≤ time + D
  | .counted _ key _ true expire => key = k → expire ≠ .down
  | _ => True

instance (k : String) (D : Nat) (s : Counters String) (us : List RatePhase) :
    ∀ t, Decidable (Prompt k D s us t)
  | .begun (.request l (some i) redis) => inferInstanceAs (Decidable (l.key i = k →
      redis.ttl = true ∧ (redis.incr = .lost → ∃ c ∈ s.get k, c.expiry ≠ none)))
  | .begun (.elapse ms) => inferInstanceAs (Decidable (∀ u ∈ us, ∀ time ∈ u.due k, s.now + ms ≤ time + D))
  | .counted _ key _ true expire => inferInstanceAs (Decidable (key = k → expire ≠ .down))
  | .begun (.request _ none _) | .begun (.evict _) | .counted _ _ _ false _ => isTrue trivial

/-- No call is broken off before its `EXPIRE`. -/
def SeenTo (k : String) (w : Sessions (Counters String) RatePhase) : Move RateCall → Prop
  | .abort id => ∀ r ∈ w.running.find? id, r.state.due k = none
  | _ => True

instance (k : String) (w : Sessions (Counters String) RatePhase) : ∀ m, Decidable (SeenTo k w m)
  | .abort id => inferInstanceAs (Decidable (∀ r ∈ w.running.find? id, r.state.due k = none))
  | .start _ _ | .go _ => isTrue trivial

def Prompted (k : String) (D : Nat) (w : Sessions (Counters String) RatePhase) (m : Move RateCall) : Prop :=
  Protocol.Allowed (fun _ => True) (Prompt k D) w m ∧ SeenTo k w m

instance (k : String) (D : Nat) (w : Sessions (Counters String) RatePhase) (m : Move RateCall) :
    Decidable (Prompted k D w m) :=
  inferInstanceAs (Decidable (Protocol.Allowed (fun _ => True) (Prompt k D) w m ∧ SeenTo k w m))

/-- The counter lives for a window from its first count on, and what its `EXPIRE` was late. -/
structure Aged (L : Limiter) (k : String) (D : Nat) (s : Counters String) : Prop where
  born : ∀ c, s.stored k = some c → c.born ≤ s.now
  expiry : ∀ c e, s.stored k = some c → c.expiry = some e → e ≤ c.born + (L.window + 2 * D)

/-- A count whose `EXPIRE` is due is not old, and was made soon behind the first of its counter. -/
structure Young (k : String) (D : Nat) (s : Counters String) (time : Nat) : Prop where
  past : time ≤ s.now
  prompt : s.now ≤ time + D
  born : ∀ c, s.stored k = some c → time ≤ c.born + D

/-- The counter made at `born` has no time to live. -/
def Unset (k : String) (s : Counters String) (born : Nat) : Prop :=
  ∃ c, s.get k = some c ∧ c.expiry = none ∧ c.born = born

section Refused

variable {L : Limiter} {k i : String} {s s' : Counters String} {t t' : RatePhase} {us : List RatePhase}
  {w : Sessions (Counters String) RatePhase} {m : Move RateCall} {D : Nat} {hits : List Hit}

theorem Aged.effect (h : Aged L k D s) (heff : KeyEffect L k s t s' hits)
    (ht : ∀ time ∈ t.due k, Young k D s time) : Aged L k D s' := by
  cases heff with
  | aside _ _ hnow hsame =>
    exact ⟨fun c hc => hnow ▸ h.born c (hsame ▸ hc), fun c e hc => h.expiry c e (hsame ▸ hc)⟩
  | elapses ms => exact ⟨fun c hc => (h.born c hc).trans (Nat.le_add_right _ _), h.expiry⟩
  | gone _ _ hnone => exact ⟨fun c hc => by simp [hnone] at hc, fun c e hc => by simp [hnone] at hc⟩
  | first i redis hi hnone hnew =>
    refine ⟨fun c hc => ?_, fun c e hc he => ?_⟩ <;> rw [hnew] at hc <;> cases hc
    · exact le_rfl
    · cases he
  | another i redis c hi hget hnew =>
    have hc := (Counters.get_eq_some.mp hget).1
    refine ⟨fun c' hc' => ?_, fun c' e hc' he => ?_⟩ <;> rw [hnew] at hc' <;> cases hc'
    · exact h.born c hc
    · exact h.expiry c e hc he
  | renewed hit expire _ c hnow hget hnew =>
    have hc := (Counters.get_eq_some.mp hget).1
    have hyoung : Young k D s hit.time := ht _ (by simp [RatePhase.due])
    refine ⟨fun c' hc' => ?_, fun c' e hc' he => ?_⟩ <;> rw [hnew] at hc' <;> cases hc'
    · exact hnow ▸ h.born c hc
    · cases he
      have hprompt := hyoung.prompt
      have hborn := hyoung.born c hc
      show s.now + L.window ≤ c.born + (L.window + 2 * D)
      omega

theorem Young.effect {time : Nat} (h : Young k D s time) (heff : KeyEffect L k s t s' hits)
    (ht : ∀ ms, t = .begun (.elapse ms) → s.now + ms ≤ time + D) : Young k D s' time := by
  cases heff with
  | aside _ _ hnow hsame => exact ⟨hnow ▸ h.past, hnow ▸ h.prompt, fun c hc => h.born c (hsame ▸ hc)⟩
  | elapses ms => exact ⟨h.past.trans (Nat.le_add_right _ _), ht ms rfl, h.born⟩
  | gone _ hnow hnone => exact ⟨hnow ▸ h.past, hnow ▸ h.prompt, fun c hc => by simp [hnone] at hc⟩
  | first i redis hi hnone hnew =>
    refine ⟨h.past, h.prompt, fun c hc => ?_⟩
    rw [hnew] at hc
    cases hc
    exact h.past.trans (Nat.le_add_right _ _)
  | another i redis c hi hget hnew =>
    refine ⟨h.past, h.prompt, fun c' hc' => ?_⟩
    rw [hnew] at hc'
    cases hc'
    exact h.born c (Counters.get_eq_some.mp hget).1
  | renewed hit expire _ c hnow hget hnew =>
    refine ⟨hnow ▸ h.past, hnow ▸ h.prompt, fun c' hc' => ?_⟩
    rw [hnew] at hc'
    cases hc'
    exact h.born c (Counters.get_eq_some.mp hget).1

/-- A counter without a time to live was there before, or is made by this count. -/
theorem unset_effect {born : Nat} (heff : KeyEffect L k s t s' hits) (h : Unset k s' born) :
    (Unset k s born ∧ t.due k = none) ∨ (Unset k s born ∧ s'.stored k = s.stored k) ∨
      ∃ i redis, t = .begun (.request L (some i) redis) ∧ L.key i = k ∧ s.get k = none ∧ born = s.now := by
  obtain ⟨c, hget, hnone, hborn⟩ := h
  have hc := (Counters.get_eq_some.mp hget).1
  cases heff with
  | aside _ _ hnow hsame =>
    refine .inr (.inl ⟨⟨c, ?_, hnone, hborn⟩, hsame⟩)
    rw [← hget]
    exact (Counters.get_congr hnow hsame).symm
  | elapses ms =>
    refine .inl ⟨⟨c, Counters.get_eq_some.mpr ⟨hc, fun e he => ?_⟩, hnone, hborn⟩, rfl⟩
    rw [hnone] at he
    cases he
  | gone _ _ hgone => simp [hgone] at hc
  | first i redis hi hnot hnew =>
    rw [hnew] at hc
    cases hc
    exact .inr (.inr ⟨i, redis, rfl, hi, hnot, hborn.symm⟩)
  | another i redis c' hi hget' hnew =>
    rw [hnew] at hc
    cases hc
    exact .inl ⟨⟨c', hget', hnone, hborn⟩, rfl⟩
  | renewed hit expire _ c' hnow hget' hnew =>
    rw [hnew] at hc
    cases hc
    cases hnone

/-- While commands come promptly, the call that has made a counter owes it its `EXPIRE`. -/
theorem limiterOwes (L : Limiter) (k : String) (D : Nat) :
    limiters.Owes (fun s us t => t.Keeps L k ∧ Prompt k D s us t) (Unset k)
      fun t born => t.due k = some born where
  goes s us t s' t' answer hC h born hunset := by
    obtain ⟨l, i, redis, rfl, rfl, rfl, -⟩ := goes_cases h
    rcases unset_effect ((effect_goes h).at_key hC.1) hunset with ⟨hold, hdue⟩ | ⟨hold, -⟩ |
      ⟨i', redis', heq, hi, hnone, rfl⟩
    · exact .inr ⟨hold, by simp [hdue]⟩
    · exact .inr ⟨hold, by simp [RatePhase.due]⟩
    · cases heq
      subst hi
      have hneg := (Counters.ttl_neg (Counters.get_incr_self (s := s) (k := L.key i))).mpr
        (by simp [Counters.bumped_of_none hnone])
      left
      simp [RatePhase.due, hneg]
  ends s us t s' answer hC h born hunset := by
    rcases unset_effect ((effect_ends h).at_key hC.1) hunset with ⟨hold, hdue⟩ | ⟨hold, hsame⟩ |
      ⟨i', redis', rfl, hi, hnone, rfl⟩
    · exact ⟨hold, by simp [hdue]⟩
    · refine ⟨hold, fun hdue => ?_⟩
      obtain ⟨c, hget, hnone, -⟩ := hold
      cases ends_cases h with
      | judged l key hit unset expire =>
        cases unset with
        | false => simp [RatePhase.due] at hdue
        | true =>
          have hk : key = k := by
            by_contra hk
            simp [RatePhase.due, hk] at hdue
          subst hk
          simp only [if_true, Counters.stored_expire_of_some hget] at hsame
          rw [(Counters.get_eq_some.mp hget).1] at hsame
          have := congrArg (Option.map Counter.expiry) hsame
          simp [hnone] at this
      | broken l key hit expire hbroken =>
        have hk : key = k := by
          by_contra hk
          simp [RatePhase.due, hk] at hdue
        subst hk
        rw [if_neg (hC.2 rfl), Counters.stored_expire_of_some hget, (Counters.get_eq_some.mp hget).1] at hsame
        have := congrArg (Option.map Counter.expiry) hsame
        simp [hnone] at this
      | _ => simp [RatePhase.due] at hdue
    · cases ends_cases h with
      | lost l i redis hlost =>
        obtain ⟨c, hget, -⟩ := (hC.2 hi).2 hlost
        simp [hnone] at hget
      | down l i redis hdown =>
        obtain ⟨c, hget, -⟩ := hunset
        simp [hnone] at hget

/-- What a call knows: it keeps to its limiter, and a count of it whose `EXPIRE` is due is young. -/
def RatePhase.Fresh (L : Limiter) (k : String) (D : Nat) (s : Counters String) (t : RatePhase) : Prop :=
  t.Keeps L k ∧ ∀ time ∈ t.due k, Young k D s time

/-- A count without a time to live is made while the call that has made the counter runs beside it. -/
def Accompanied (k : String) (D : Nat) (s : Counters String) (us : List RatePhase) (t : RatePhase) : Prop :=
  Prompt k D s us t ∧ ∀ l i redis, t = .begun (.request l (some i) redis) → l.key i = k →
    ∀ born, Unset k s born → ∃ u ∈ us, u.due k = some born

theorem RatePhase.Fresh.effect {u : RatePhase} (h : u.Fresh L k D s) (heff : KeyEffect L k s t s' hits)
    (hprompt : Prompt k D s us t) (hu : u ∈ us) : u.Fresh L k D s' := by
  refine ⟨h.1, fun time htime => (h.2 time htime).effect heff ?_⟩
  rintro ms rfl
  exact hprompt u hu time htime

/-- Prompt commands keep the counter aged, and what is due young. -/
theorem promptRule (L : Limiter) (k : String) (D : Nat) :
    limiters.Rule (fun call => (RatePhase.begun call).Keeps L k) (Accompanied k D) (Aged L k D)
      (fun s t => t.Fresh L k D s) fun _ _ => True where
  symm _ _ _ := trivial
  start _ _ _ hcall := ⟨⟨hcall, nofun⟩, fun _ _ => trivial⟩
  goes s us t hs ht hus hC s' t' answer h := by
    have heff := (effect_goes h).at_key ht.1
    refine ⟨hs.effect heff ht.2, ⟨keeps_goes ht.1 h, ?_⟩,
      fun u hu => ⟨(hus u hu).1.effect heff hC.1 hu, trivial⟩⟩
    obtain ⟨l, i, redis, rfl, rfl, rfl, -⟩ := goes_cases h
    intro time htime
    by_cases hk : l.key i = k
    · subst hk
      obtain ⟨httl, -⟩ := hC.1 rfl
      cases hneg : decide ((s.incr (l.key i)).ttl (l.key i) < 0) with
      | false => simp [RatePhase.due, httl, hneg] at htime
      | true =>
        have htime : s.now = time := by simpa [RatePhase.due, httl, hneg] using htime
        subst htime
        refine ⟨le_rfl, Nat.le_add_right _ _, fun c hc => ?_⟩
        rw [Counters.stored_incr_self] at hc
        cases hc
        have hnone := (Counters.ttl_neg Counters.get_incr_self).mp (by simpa using hneg)
        cases hget : s.get (l.key i) with
        | none =>
          rw [Counters.bumped_of_none hget]
          exact Nat.le_add_right _ _
        | some c =>
          rw [Counters.bumped_of_some hget] at hnone ⊢
          obtain ⟨u, hu, hdue⟩ := hC.2 l i redis rfl rfl c.born ⟨c, hget, hnone, rfl⟩
          exact ((hus u hu).1.2 _ hdue).prompt
    · simp [due_counted, hk] at htime
  ends s us t hs ht hus hC s' answer h := by
    have heff := (effect_ends h).at_key ht.1
    exact ⟨hs.effect heff ht.2, fun u hu => (hus u hu).1.effect heff hC.1 hu⟩

/-- The rule, with what is owed. -/
structure Orderly (L : Limiter) (k : String) (D : Nat) (w : Sessions (Counters String) RatePhase) : Prop where
  holds : Protocol.Holds (Aged L k D) (fun s t => t.Fresh L k D s) (fun _ _ => True) w
  owed : Protocol.Owed (Unset k) (fun t born => t.due k = some born) w

/-- Beside a request, the call that owes its `EXPIRE`. -/
theorem Orderly.accompanied (h : Orderly L k D w) {r : Session RatePhase}
    (hfind : w.running.find? r.id = some r) (hprompt : Prompt k D w.committed (w.others r.id) r.state) :
    Accompanied k D w.committed (w.others r.id) r.state := by
  refine ⟨hprompt, fun l i redis hr hk born hunset => ?_⟩
  obtain ⟨r', hr', hdue⟩ := h.owed born hunset
  refine ⟨r'.state, Protocol.mem_others.mpr ⟨r', hr', fun hid => ?_, rfl⟩, hdue⟩
  have hsame : r' = r := by
    have hkey : Keyed.key r' = Keyed.key r := hid
    exact Table.eq_of_key hr' (Table.find?_mem hfind) hkey
  rw [hsame, hr] at hdue
  cases hdue

theorem Orderly.step (h : Orderly L k D w) (hstart : ∀ id call, m = .start id call →
      (RatePhase.begun call).Keeps L k) (hm : Prompted k D w m) :
    Orderly L k D (limiters.machine.step w m).1 := by
  have hallowed : Protocol.Allowed (fun call => (RatePhase.begun call).Keeps L k) (Accompanied k D) w m := by
    cases m with
    | start id call => exact hstart id call rfl
    | go id =>
      intro r hr
      obtain rfl : r.id = id := Table.find?_key hr
      exact h.accompanied hr (hm.1 r hr)
    | abort id => trivial
  refine ⟨(promptRule L k D).step w m h.holds hallowed, ?_⟩
  by_cases habort : m.isAbort = true
  · cases m with
    | start id call => cases habort
    | go id => cases habort
    | abort id =>
      rintro born hunset
      obtain ⟨r, hr, hdue⟩ := h.owed born hunset
      refine ⟨r, Table.mem_deleteWhere.mpr ⟨hr, decide_eq_false fun hid => ?_⟩, hdue⟩
      subst hid
      have hnone : r.state.due k = none := hm.2 r (Table.find?_eq_some.mpr ⟨hr, rfl⟩)
      rw [hnone] at hdue
      cases hdue
  · refine (limiterOwes L k D).step w m h.owed (S := fun _ => True) ?_ (Bool.not_eq_true _ ▸ habort)
    cases m with
    | start id call => trivial
    | go id =>
      intro r hr
      exact ⟨(h.holds.session r (Table.find?_mem hr)).1, hm.1 r hr⟩
    | abort id => trivial

/-- While commands come promptly, no life of the counter is longer than a window and what its `EXPIRE` was
late. -/
theorem lives_of_prompt {moves : List (Move RateCall)} (hs : s.stored k = none)
    (hmoves : ∀ id call, .start id call ∈ moves → (RatePhase.begun call).Keeps L k)
    (hprompt : limiters.machine.Every (Prompted k D) (Sessions.start s) moves) :
    Lives (fun l t => t ≤ l.born + (L.window + 2 * D)) (fun _ _ => True) none
      (hitsOf k (limiters.machine.outputs (Sessions.start s) moves)) := by
  have hstart : Orderly L k D (Sessions.start s) := by
    refine ⟨Protocol.Holds.start ⟨fun c hc => by simp [hs] at hc, fun c e hc => by simp [hs] at hc⟩, ?_⟩
    rintro born ⟨c, hget, -⟩
    have hc := (Counters.get_eq_some.mp hget).1
    rw [show (Sessions.start (τ := RatePhase) s).committed = s from rfl, hs] at hc
    cases hc
  have hguard : limiters.machine.Every (fun w m => Prompted k D w m ∧
      ∀ id call, m = .start id call → (RatePhase.begun call).Keeps L k) (Sessions.start s) moves := by
    refine Machine.every_and.mpr ⟨hprompt, Machine.every_input.mpr fun m hm id call heq => ?_⟩
    exact hmoves id call (heq ▸ hm)
  refine lives_run (E := True) (fun w m (hw : Orderly L k D w) hm => hw.step hm.2 hm.1)
    (fun w hw r hr => ⟨(hw.holds.session r hr).1, fun _ => trivial⟩) (fun w c l hw hget hborn => ?_)
    (fun _ _ _ _ _ _ _ => trivial) (fun _ _ _ => trivial) hstart hs hguard
  rw [hborn]
  cases he : c.expiry with
  | some e =>
    obtain ⟨hc, hlive⟩ := Counters.get_eq_some.mp hget
    exact (hlive e he).trans (hw.holds.committed.expiry c e hc he)
  | none =>
    obtain ⟨r, hr, hdue⟩ := hw.owed c.born ⟨c, hget, he, rfl⟩
    have hyoung := ((hw.holds.session r hr).2 c.born hdue).prompt
    omega

/-- A refusal of this count. -/
def limitedAs (k : String) (hit : Hit) : RateEvent → Bool
  | .limited _ key h _ => key = k && h = hit
  | _ => false

theorem limitedAs_verdict {l : Limiter} {key : String} {hit h : Hit} (hk : key = k → l = L)
    (hlimited : limitedAs k hit (l.verdict key h) = true) :
    key = k ∧ (decide (h = hit) && decide (L.max < hit.rank)) = true := by
  unfold Limiter.verdict at hlimited
  split at hlimited
  · rename_i hrank
    simp only [limitedAs, Bool.and_eq_true, decide_eq_true_eq] at hlimited
    obtain ⟨rfl, rfl⟩ := hlimited
    obtain rfl := hk rfl
    simpa using hrank
  · cases hlimited

/-- Who is refused has made more than `max` requests, this one with them, in a window and twice the time
that an `EXPIRE` may take. -/
theorem within_limit_passes {config : RateLimitConfig} {moves : List (Move RateCall)} (D : Nat) (hit : Hit)
    (err : Err) (hL : L ∈ mounted config) (hs : s.stored (L.key i) = none)
    (hmoves : ∀ id call, .start id call ∈ moves → call.Mounted config)
    (hprompt : limiters.machine.Every (Prompted (L.key i) D) (Sessions.start s) moves)
    (hlimited : .limited L (L.key i) hit err ∈ limiters.machine.outputs (Sessions.start s) moves) :
    ∃ before after, hitsOf (L.key i) (limiters.machine.outputs (Sessions.start s) moves) =
        before ++ hit :: after ∧
      L.max ≤ before.countP fun h => hit.time ≤ h.time + (L.window + 2 * D) := by
  have hkeeps : ∀ id call, .start id call ∈ moves → (RatePhase.begun call).Keeps L (L.key i) :=
    fun id call hm => keeps_of_mounted hL (hmoves id call hm)
  have hbacked := (backed_counts (L := L) (k := L.key i)
    (fun h => decide (h = hit) && decide (L.max < hit.rank)) (limitedAs (L.key i) hit) (fun _ _ _ => rfl) rfl
    (fun l key => by unfold Limiter.caught; split <;> rfl)
    fun l key h => limitedAs_verdict).run (s := s) hkeeps
  have hpos : 0 < (limiters.machine.outputs (Sessions.start s) moves).countP (limitedAs (L.key i) hit) :=
    List.countP_pos_iff.mpr ⟨_, hlimited, by simp [limitedAs]⟩
  rw [← countP_hitsOf] at hbacked
  obtain ⟨h, hmem, hh⟩ := List.countP_pos_iff.mp (hpos.trans_le hbacked)
  simp only [Bool.and_eq_true, decide_eq_true_eq] at hh
  obtain ⟨rfl, hrank⟩ := hh
  obtain ⟨before, after, hsplit⟩ := List.append_of_mem hmem
  have hlives := lives_of_prompt hs hkeeps hprompt
  rw [hsplit] at hlives
  have hle := hlives.rank_le fun _ _ => id
  rw [List.countP_append] at hle
  have hone : [h].countP (fun h' => h.time ≤ h'.time + (L.window + 2 * D)) ≤ 1 := List.countP_le_length
  exact ⟨before, after, hsplit, by omega⟩

end Refused

/-! ## Registrations from one address -/

def deployed : RateLimitConfig := ⟨120, 240, 10, 240, true⟩

/-- `perEmail` of `routes/onboarding.js`. -/
def perEmail : Limiter :=
  { windowSeconds := 3600, max := 3, keyPrefix := "onboard:email", failClosed := true }

theorem perEmail_mounted : perEmail ∈ mounted deployed := by decide +kernel

/-- A request whose commands are answered. -/
def asked (id : Nat) : List (Move RateCall) :=
  [.start id (.request perEmail (some "ana") ⟨.answered, true, .answered⟩), .go id, .go id]

def pause (id ms : Nat) : List (Move RateCall) := [.start id (.elapse ms), .go id]

/-- One request, two at the end of its window, and three when that is over. -/
def burst : List (Move RateCall) :=
  asked 0 ++ pause 9 3599000 ++ asked 1 ++ asked 2 ++ pause 9 1001 ++ asked 3 ++ asked 4 ++ asked 5

/-- Five of them pass within an hour, and no more can. -/
theorem burst_bounded :
    (limiters.machine.outputs (Sessions.start (.empty 0)) burst).countP
        (passedWithin (perEmail.key "ana") 3599000 perEmail.window) = 5 ∧
      (limiters.machine.outputs (Sessions.start (.empty 0)) burst).countP
          (passedWithin (perEmail.key "ana") 3599000 perEmail.window) ≤ 2 * perEmail.max - 1 ∧
      (perEmail.failClosed = true →
        .waved (perEmail.key "ana") ∉ limiters.machine.outputs (Sessions.start (.empty 0)) burst) :=
  ⟨by decide +kernel,
    limiter_bounds perEmail_mounted rfl (Move.begins_iff.mp (by decide +kernel)) 3599000⟩

/-- A fourth request is refused, and one that comes an hour behind it is the first again. -/
theorem refused_waited_out :
    ((limiters.machine.run (limiters.machine.run (limiters.machine.run (Sessions.start (.empty 0))
      (asked 0 ++ asked 1 ++ asked 2 ++ (asked 3).take 1)) [.go 3, .go 3])
        (pause 9 3600001)).committed.bumped (perEmail.key "ana")).count = 1 :=
  waited_out deployed 3 ⟨.answered, true, .answered⟩ _ [.go 3, .go 3] (pause 9 3600001) perEmail_mounted
    (windowed_of_none rfl) (Move.begins_iff.mp (by decide +kernel)) rfl rfl rfl rfl
    (Move.begins_iff.mp (by decide +kernel)) (by simp) (by decide +kernel) (by decide +kernel)
    (by decide +kernel) (by decide +kernel)

/-- The fourth request of an hour is refused, behind three. -/
theorem fourth_refused :
    ∃ before after, hitsOf (perEmail.key "ana") (limiters.machine.outputs (Sessions.start (.empty 0))
        (asked 0 ++ asked 1 ++ asked 2 ++ asked 3)) = before ++ ⟨0, 4⟩ :: after ∧
      perEmail.max ≤ before.countP fun h => 0 ≤ h.time + (perEmail.window + 2 * 100) :=
  within_limit_passes 100 ⟨0, 4⟩ (.api .rateLimited "Too many requests" perEmail.details) perEmail_mounted rfl
    (Move.begins_iff.mp (by decide +kernel)) (by decide +kernel) (by decide +kernel)

end Splite
