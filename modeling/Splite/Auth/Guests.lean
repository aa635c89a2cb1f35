import Splite.Basic
import Splite.Lib.Interleave

/-!
# A guest session (`services/guest.js`)

`createGuestSession`, `resolveGuestSession` and `destroyGuestSession` of one session, statement by
statement, over its row and its entry in Redis. A command of Redis comes through or fails, and its answer
may come late.

* `guestsRule`: the entry of a session that has been destroyed lives for the idle timeout behind that, and
  so does what a call has seen before.
* `session_ends`: a session does not resolve behind the idle timeout of a destroy, or its ceiling, in any
  run that keeps its entry from being extended or found behind them, and whose answers come in time.
-/

namespace Splite

/-- `config.guest`. -/
structure GuestConfig where
  sessionTtlSeconds : Nat
  maxSessionAgeSeconds : Nat

/-- A row of `guest_sessions`. -/
structure GuestRow where
  restaurantId : Uuid
  tableId : Uuid
  tokenHash : String
  expiresAt : Time
  revokedAt : Option Time
  deriving DecidableEq, Repr

/-- What is cached; an entry of an older version has no ceiling. -/
structure CachedSession where
  restaurantId : Uuid
  tableId : Uuid
  tokenHash : String
  absoluteExpiresAt : Option Time
  deriving DecidableEq, Repr

/-- An entry of Redis, which is gone at `expiry`. -/
structure GuestEntry extends CachedSession where
  expiry : Time
  deriving DecidableEq, Repr

/-- The row and the entry of the session, the clock, and when a `destroyGuestSession` of it has first
returned. -/
structure GuestWorld where
  row : Option GuestRow
  entry : Option GuestEntry
  now : Time
  ended : Option Time
  deriving DecidableEq, Repr

namespace GuestWorld

def empty (now : Time) : GuestWorld := ⟨none, none, now, none⟩

/-- What `GET` answers with. -/
def cached (s : GuestWorld) : Option GuestEntry := s.entry.filter fun e => s.now < e.expiry

end GuestWorld

/-- Whether the commands of a call come through: its `GET`, its `DEL`, and its `SET` or `EXPIRE`. -/
structure RedisAnswers where
  get : Bool
  del : Bool
  write : Bool
  deriving DecidableEq, Repr

inductive GuestCall where
  | create (restaurantId tableId : Uuid) (guestToken : String) (redis : RedisAnswers)
  | resolve (guestToken : String) (redis : RedisAnswers)
  | destroy (redis : RedisAnswers)
  /-- The entry is evicted, or Redis flushed. -/
  | evict
  | elapse (ms : Nat)
  deriving DecidableEq, Repr

/-- When a call has seen the session, and until when what it has seen stands. -/
structure GuestSeen where
  since : Time
  expiry : Time
  deriving DecidableEq, Repr

/-- The next statement of a call. -/
inductive GuestPhase where
  | begun (call : GuestCall)
  /-- The row is inserted; `Date.now()`. -/
  | inserted (session : CachedSession) (redis : RedisAnswers)
  /-- `SET … EX ttl`, of `createGuestSession` or behind a row that has been seen. -/
  | storing (session : CachedSession) (ttl : Nat) (redis : RedisAnswers) (seen : Option GuestSeen)
  | created
  /-- `GET` has answered with an entry. -/
  | found (entry : GuestEntry) (presented : String) (redis : RedisAnswers)
  /-- `EXPIRE … ttl`. -/
  | sliding (session : CachedSession) (ttl : Nat) (redis : RedisAnswers) (seen : GuestSeen)
  /-- `DEL`, and then the row or nothing. -/
  | dropping (presented : Option String) (redis : RedisAnswers)
  | denying
  /-- `SELECT … FROM guest_sessions`. -/
  | reading (presented : String) (redis : RedisAnswers)
  | selected (row : GuestRow) (redis : RedisAnswers) (seen : GuestSeen)
  | answering (session : CachedSession) (seen : GuestSeen)
  /-- `revoked_at` is stamped, if there was a row; `DEL`. -/
  | clearing (stamped : Bool) (redis : RedisAnswers)
  | cleared (stamped : Bool)
  deriving DecidableEq, Repr

inductive GuestEvent where
  | created
  | resolved (restaurantId tableId : Uuid)
  /-- `resolveGuestSession` returns `null`. -/
  | denied
  | destroyed
  | refused (err : Err)
  deriving DecidableEq, Repr

section Services

variable (config : GuestConfig) (hashToken : String → String)

/-- `cappedTtl(absoluteExpiresAt)`; what is past its ceiling has nothing left. -/
def cappedTtl (now absoluteExpiresAt : Time) : Nat :=
  let left := (absoluteExpiresAt - now) / 1000
  if left = 0 then 0 else min config.sessionTtlSeconds left

/-- The next statement. -/
def GuestPhase.next (s : GuestWorld) (_ : List GuestPhase) :
    GuestPhase → Advance GuestWorld GuestPhase GuestEvent
  | .begun (.create restaurantId tableId guestToken redis) =>
    if s.row.isSome then .ends s [.refused (.uniqueViolation "guest_sessions_pkey")]
    else
      let tokenHash := hashToken guestToken
      let expiresAt := s.now + config.maxSessionAgeSeconds * 1000
      .goes { s with row := some ⟨restaurantId, tableId, tokenHash, expiresAt, none⟩ }
        (.inserted ⟨restaurantId, tableId, tokenHash, none⟩ redis) []
  | .begun (.resolve guestToken redis) =>
    if guestToken = "" then .ends s [.denied]
    else
      let presented := hashToken guestToken
      match if redis.get then s.cached else none with
      | some e => .goes s (.found e presented redis) []
      | none => .goes s (.reading presented redis) []
  | .begun (.destroy redis) =>
    .goes { s with row := s.row.map fun r => { r with revokedAt := r.revokedAt.or (some s.now) } }
      (.clearing s.row.isSome redis) []
  | .begun .evict => .ends { s with entry := none } []
  | .begun (.elapse ms) => .ends { s with now := s.now + ms } []
  | .inserted session redis =>
    let absoluteExpiresAt := s.now + config.maxSessionAgeSeconds * 1000
    .goes s (.storing { session with absoluteExpiresAt := some absoluteExpiresAt }
      (cappedTtl config s.now absoluteExpiresAt) redis none) []
  | .storing session ttl redis seen =>
    -- Redis refuses `EX 0`.
    let s' := if redis.write ∧ 0 < ttl then { s with entry := some ⟨session, s.now + ttl * 1000⟩ } else s
    match seen with
    | none => .goes s' .created []
    | some seen => .goes s' (.answering session seen) []
  | .created => .ends s [.created]
  | .found e presented redis =>
    if e.tokenHash ≠ presented then .ends s [.denied]
    else
      match e.absoluteExpiresAt with
      | none => .goes s (.dropping (some presented) redis) []
      | some absoluteExpiresAt =>
        if absoluteExpiresAt ≤ s.now then .goes s (.dropping none redis) []
        else
          .goes s (.sliding e.toCachedSession (cappedTtl config s.now absoluteExpiresAt) redis
            ⟨s.now, e.expiry⟩) []
  | .sliding session ttl redis seen =>
    -- `EXPIRE` with nothing left deletes the entry.
    let entry := s.cached.bind fun e =>
      if ttl = 0 then none else some { e with expiry := s.now + ttl * 1000 }
    .goes (if redis.write then { s with entry } else s) (.answering session seen) []
  | .dropping presented redis =>
    let s' := if redis.del then { s with entry := none } else s
    match presented with
    | none => .goes s' .denying []
    | some presented => .goes s' (.reading presented redis) []
  | .denying => .ends s [.denied]
  | .reading presented redis =>
    match s.row.filter fun r => r.revokedAt.isNone && s.now < r.expiresAt && r.tokenHash = presented with
    | none => .ends s [.denied]
    | some r => .goes s (.selected r redis ⟨s.now, s.now + config.sessionTtlSeconds * 1000⟩) []
  | .selected r redis seen =>
    let ttl := cappedTtl config s.now r.expiresAt
    if ttl = 0 then .ends s [.denied]
    else
      .goes s (.storing ⟨r.restaurantId, r.tableId, r.tokenHash, some r.expiresAt⟩ ttl redis (some seen)) []
  | .answering session _ => .ends s [.resolved session.restaurantId session.tableId]
  | .clearing stamped redis =>
    .goes (if redis.del then { s with entry := none } else s) (.cleared stamped) []
  | .cleared stamped =>
    .ends (if stamped then { s with ended := s.ended.or (some s.now) } else s) [.destroyed]

def guests : Protocol GuestWorld GuestPhase GuestCall GuestEvent where
  start := .begun
  next := GuestPhase.next config hashToken

end Services

/-! ## What is seen of a session -/

section Statements

variable (config : GuestConfig)

/-- The idle timeout. -/
def GuestConfig.idle : Time := config.sessionTtlSeconds * 1000

/-- What is in force until `expiry` is not so for longer than the idle timeout, from now or from when the
session was destroyed. -/
structure GuestWorld.Bounds (s : GuestWorld) (expiry : Time) : Prop where
  now : expiry ≤ s.now + config.idle
  ended : ∀ R ∈ s.ended, expiry ≤ R + config.idle

/-- The entry is bounded, and a session that has been destroyed is revoked. -/
structure GuestWorld.Kept (s : GuestWorld) : Prop where
  entry : ∀ e ∈ s.entry, s.Bounds config e.expiry
  row : s.entry.isSome = true → s.row.isSome = true
  ended : s.ended.isSome = true → ∃ r ∈ s.row, r.revokedAt.isSome = true

/-- A call has seen the session before its ceiling, and what it has seen is bounded. -/
structure GuestWorld.Saw (s : GuestWorld) (seen : GuestSeen) : Prop where
  bounds : s.Bounds config seen.expiry
  row : ∃ r ∈ s.row, seen.since < r.expiresAt

/-- What a call knows by its next statement. -/
def GuestPhase.Sound (s : GuestWorld) : GuestPhase → Prop
  | .inserted _ _ => s.row.isSome = true
  | .storing _ ttl _ seen => ttl ≤ config.sessionTtlSeconds ∧ s.row.isSome = true ∧
    ∀ seen' ∈ seen, s.Saw config seen'
  | .found e _ _ => s.Bounds config e.expiry ∧ s.row.isSome = true
  | .sliding _ ttl _ seen => ttl ≤ config.sessionTtlSeconds ∧ s.Saw config seen
  | .selected _ _ seen | .answering _ seen => s.Saw config seen
  | .clearing stamped _ | .cleared stamped => stamped = true → ∃ r ∈ s.row, r.revokedAt.isSome = true
  | _ => True

/-- What a statement has to meet for the session to end: behind a destroy the entry is not given more than
what is left of the idle timeout; an entry that is found behind the ceiling of the row has reached its own;
and an answer that was under way then comes while what it rests on stands. -/
def InTime (s : GuestWorld) (_ : List GuestPhase) : GuestPhase → Prop
  | .storing _ ttl redis _ => redis.write = true → 0 < ttl →
    ∀ R ∈ s.ended, s.now + ttl * 1000 ≤ R + config.idle
  | .sliding _ ttl redis _ => redis.write = true → 0 < ttl → s.cached.isSome = true →
    ∀ R ∈ s.ended, s.now + ttl * 1000 ≤ R + config.idle
  | .found e _ _ => ∀ r ∈ s.row, r.expiresAt ≤ s.now → ∀ a ∈ e.absoluteExpiresAt, a ≤ s.now
  | .answering _ seen => (s.ended.isSome = true → s.now ≤ seen.expiry) ∧
    ∀ r ∈ s.row, seen.since < r.expiresAt → s.now < r.expiresAt
  | _ => True

instance (s : GuestWorld) (us : List GuestPhase) : ∀ t, Decidable (InTime config s us t)
  | .storing _ ttl redis _ => inferInstanceAs (Decidable (redis.write = true → 0 < ttl →
      ∀ R ∈ s.ended, s.now + ttl * 1000 ≤ R + config.idle))
  | .sliding _ ttl redis _ => inferInstanceAs (Decidable (redis.write = true → 0 < ttl →
      s.cached.isSome = true → ∀ R ∈ s.ended, s.now + ttl * 1000 ≤ R + config.idle))
  | .found e _ _ => inferInstanceAs (Decidable (∀ r ∈ s.row, r.expiresAt ≤ s.now →
      ∀ a ∈ e.absoluteExpiresAt, a ≤ s.now))
  | .answering _ seen => inferInstanceAs (Decidable ((s.ended.isSome = true → s.now ≤ seen.expiry) ∧
      ∀ r ∈ s.row, seen.since < r.expiresAt → s.now < r.expiresAt))
  | .begun _ | .inserted _ _ | .created | .dropping _ _ | .denying | .reading _ _ | .selected _ _ _
  | .clearing _ _ | .cleared _ => isTrue trivial

/-- Time has passed: the row keeps its ceiling, and a destroy that has returned since has done so since. -/
structure GuestWorld.Later (s s' : GuestWorld) : Prop where
  now : s.now ≤ s'.now
  row : ∀ r ∈ s.row, ∃ r' ∈ s'.row, r'.expiresAt = r.expiresAt ∧
    (r.revokedAt.isSome = true → r'.revokedAt.isSome = true)
  ended : ∀ R ∈ s'.ended, R ∈ s.ended ∨ s.now ≤ R

variable {config} {s s' : GuestWorld} {t t' : GuestPhase} {us : List GuestPhase} {answer : List GuestEvent}
  {hashToken : String → String}

theorem GuestWorld.Later.refl (s : GuestWorld) : s.Later s :=
  ⟨le_rfl, fun r hr => ⟨r, hr, rfl, id⟩, fun _ hR => .inl hR⟩

theorem GuestWorld.Later.row_isSome (h : s.Later s') (hs : s.row.isSome = true) : s'.row.isSome = true := by
  obtain ⟨r, hr⟩ := Option.isSome_iff_exists.mp hs
  obtain ⟨r', hr', -⟩ := h.row r hr
  exact Option.isSome_iff_exists.mpr ⟨r', hr'⟩

theorem GuestWorld.Later.revoked (h : s.Later s') (hs : ∃ r ∈ s.row, r.revokedAt.isSome = true) :
    ∃ r ∈ s'.row, r.revokedAt.isSome = true := by
  obtain ⟨r, hr, hrevoked⟩ := hs
  obtain ⟨r', hr', -, hkeeps⟩ := h.row r hr
  exact ⟨r', hr', hkeeps hrevoked⟩

theorem GuestWorld.Bounds.later {expiry : Time} (h : s.Bounds config expiry) (hl : s.Later s') :
    s'.Bounds config expiry where
  now := h.now.trans (Nat.add_le_add_right hl.now _)
  ended R hR := by
    rcases hl.ended R hR with hold | hnew
    · exact h.ended R hold
    · exact h.now.trans (Nat.add_le_add_right hnew _)

theorem GuestWorld.Saw.later {seen : GuestSeen} (h : s.Saw config seen) (hl : s.Later s') :
    s'.Saw config seen := by
  obtain ⟨r, hr, hsince⟩ := h.row
  obtain ⟨r', hr', hexpires, -⟩ := hl.row r hr
  exact ⟨h.bounds.later hl, r', hr', hexpires ▸ hsince⟩

/-- What a call knows it still knows. -/
theorem GuestPhase.Sound.later (h : t.Sound config s) (hl : s.Later s') : t.Sound config s' := by
  cases t with
  | inserted session redis => exact hl.row_isSome h
  | storing session ttl redis seen =>
    exact ⟨h.1, hl.row_isSome h.2.1, fun seen' hs => (h.2.2 seen' hs).later hl⟩
  | found e presented redis => exact ⟨h.1.later hl, hl.row_isSome h.2⟩
  | sliding session ttl redis seen => exact ⟨h.1, h.2.later hl⟩
  | selected row redis seen => exact GuestWorld.Saw.later h hl
  | answering session seen => exact GuestWorld.Saw.later h hl
  | clearing stamped redis => exact fun hs => hl.revoked (h hs)
  | cleared stamped => exact fun hs => hl.revoked (h hs)
  | _ => trivial

theorem cappedTtl_le (now absoluteExpiresAt : Time) :
    cappedTtl config now absoluteExpiresAt ≤ config.sessionTtlSeconds := by
  unfold cappedTtl
  dsimp only
  split
  · exact Nat.zero_le _
  · exact min_le_left _ _

/-- An entry that lives from now on is bounded, when it is not given more than is left. -/
theorem bounds_of_ttl {ttl : Nat} (httl : ttl ≤ config.sessionTtlSeconds)
    (h : ∀ R ∈ s.ended, s.now + ttl * 1000 ≤ R + config.idle) :
    s.Bounds config (s.now + ttl * 1000) :=
  ⟨Nat.add_le_add_left (Nat.mul_le_mul_right _ httl) _, h⟩

/-- A command of Redis that comes through leaves another entry, which is bounded. -/
theorem GuestWorld.Kept.with_entry (h : s.Kept config) (c : Prop) [Decidable c] (entry : Option GuestEntry)
    (hentry : c → ∀ e ∈ entry, s.Bounds config e.expiry)
    (hrow : c → entry.isSome = true → s.row.isSome = true) :
    GuestWorld.Kept config (if c then { s with entry } else s) ∧
      s.Later (if c then { s with entry } else s) := by
  split
  · rename_i hc
    refine ⟨⟨fun e he => ?_, hrow hc, h.ended⟩, le_rfl, fun r hr => ⟨r, hr, rfl, id⟩, fun _ hR => .inl hR⟩
    exact ⟨(hentry hc e he).now, (hentry hc e he).ended⟩
  · exact ⟨h, .refl s⟩

/-- A call that goes on in time keeps the world, and knows what its phase says. -/
theorem guest_goes (hs : s.Kept config) (ht : t.Sound config s) (hin : InTime config s us t)
    (h : t.next config hashToken s us = .goes s' t' answer) :
    (s'.Kept config ∧ s.Later s') ∧ t'.Sound config s' ∧ answer = [] := by
  have hsame : s.Kept config ∧ s.Later s := ⟨hs, .refl s⟩
  cases t with
  | begun call =>
    cases call with
    | create restaurantId tableId guestToken redis =>
      unfold GuestPhase.next at h
      dsimp only at h
      split at h
      · cases h
      · rename_i hnone
        cases h
        have hrow : s.row = none := by simpa using hnone
        refine ⟨⟨⟨fun e he => ⟨(hs.entry e he).now, (hs.entry e he).ended⟩, fun _ => rfl, fun hended => ?_⟩,
          le_rfl, fun r hr => ?_, fun _ hR => .inl hR⟩, rfl, rfl⟩
        · obtain ⟨r, hr, -⟩ := hs.ended hended
          simp [hrow] at hr
        · simp [hrow] at hr
    | resolve guestToken redis =>
      unfold GuestPhase.next at h
      dsimp only at h
      split at h
      · cases h
      · split at h
        · rename_i e he
          cases h
          have hcached : s.cached = some e := by
            split at he
            · exact he
            · cases he
          have hentry : s.entry = some e := (Option.filter_eq_some_iff.mp hcached).1
          exact ⟨hsame, ⟨hs.entry e hentry, hs.row (by rw [hentry]; rfl)⟩, rfl⟩
        · cases h
          exact ⟨hsame, trivial, rfl⟩
    | destroy redis =>
      cases h
      have hkeeps : ∀ r ∈ s.row, ∃ r' ∈ s.row.map fun r =>
          { r with revokedAt := r.revokedAt.or (some s.now) }, r'.expiresAt = r.expiresAt ∧
            (r.revokedAt.isSome = true → r'.revokedAt.isSome = true) ∧ r'.revokedAt.isSome = true := by
        intro r hr
        refine ⟨_, Option.mem_map_of_mem _ hr, rfl, ?_, ?_⟩ <;> simp
      refine ⟨⟨⟨fun e he => ⟨(hs.entry e he).now, (hs.entry e he).ended⟩, fun he => ?_, fun hended => ?_⟩,
        le_rfl, fun r hr => ?_, fun _ hR => .inl hR⟩, fun hstamped => ?_, rfl⟩
      · simpa using hs.row he
      · obtain ⟨r, hr, -⟩ := hs.ended hended
        obtain ⟨r', hr', -, -, hrevoked⟩ := hkeeps r hr
        exact ⟨r', hr', hrevoked⟩
      · obtain ⟨r', hr', hexpires, hrevoked, -⟩ := hkeeps r hr
        exact ⟨r', hr', hexpires, hrevoked⟩
      · obtain ⟨r, hr⟩ := Option.isSome_iff_exists.mp hstamped
        obtain ⟨r', hr', -, -, hrevoked⟩ := hkeeps r hr
        exact ⟨r', hr', hrevoked⟩
    | evict => cases h
    | elapse ms => cases h
  | inserted session redis =>
    cases h
    exact ⟨hsame, ⟨cappedTtl_le _ _, ht, nofun⟩, rfl⟩
  | storing session ttl redis seen =>
    obtain ⟨httl, hrow, hseen⟩ := ht
    have hkept := hs.with_entry (redis.write = true ∧ 0 < ttl)
      (some ⟨session, s.now + ttl * 1000⟩) (fun hc e he => by
        obtain rfl := Option.some.inj he
        exact bounds_of_ttl httl (hin hc.1 hc.2)) fun _ _ => hrow
    unfold GuestPhase.next at h
    dsimp only at h
    cases seen with
    | none =>
      cases h
      exact ⟨hkept, trivial, rfl⟩
    | some seen =>
      cases h
      exact ⟨hkept, (hseen seen rfl).later hkept.2, rfl⟩
  | created => cases h
  | found e presented redis =>
    unfold GuestPhase.next at h
    dsimp only at h
    split at h
    · cases h
    · split at h
      · cases h
        exact ⟨hsame, trivial, rfl⟩
      · rename_i a ha
        split at h
        · cases h
          exact ⟨hsame, trivial, rfl⟩
        · rename_i hlive
          cases h
          obtain ⟨r, hr⟩ := Option.isSome_iff_exists.mp ht.2
          refine ⟨hsame, ⟨cappedTtl_le _ _, ht.1, r, hr, ?_⟩, rfl⟩
          by_contra hexpired
          exact hlive (hin r hr (not_lt.mp hexpired) a ha)
  | sliding session ttl redis seen =>
    obtain ⟨httl, hseen⟩ := ht
    cases h
    have hrow : s.row.isSome = true := by
      obtain ⟨r, hr, -⟩ := hseen.row
      rw [Option.mem_def.mp hr]
      rfl
    have hkept := hs.with_entry (redis.write = true)
      (s.cached.bind fun e => if ttl = 0 then none else some { e with expiry := s.now + ttl * 1000 })
      (fun hc e he => by
        obtain ⟨e₀, he₀, he⟩ := Option.bind_eq_some_iff.mp he
        split at he
        · cases he
        · rename_i hne
          cases he
          exact bounds_of_ttl httl (hin hc (Nat.pos_of_ne_zero hne) (by rw [he₀]; rfl))) fun _ _ => hrow
    exact ⟨hkept, hseen.later hkept.2, rfl⟩
  | dropping presented redis =>
    have hkept := hs.with_entry (redis.del = true) none (fun _ => nofun) fun _ => nofun
    cases presented <;> cases h <;> exact ⟨hkept, trivial, rfl⟩
  | denying => cases h
  | reading presented redis =>
    unfold GuestPhase.next at h
    dsimp only at h
    split at h
    · cases h
    · rename_i r hr
      cases h
      obtain ⟨hrow, hvalid⟩ := Option.filter_eq_some_iff.mp hr
      simp only [Bool.and_eq_true, Option.isNone_iff_eq_none, decide_eq_true_eq] at hvalid
      obtain ⟨⟨hrevoked, hexpires⟩, -⟩ := hvalid
      refine ⟨hsame, ⟨⟨le_rfl, fun R hR => ?_⟩, r, hrow, hexpires⟩, rfl⟩
      -- A row that is not revoked is of a session that no destroy has returned for.
      obtain ⟨r', hr', hrevoked'⟩ := hs.ended (by rw [Option.mem_def.mp hR]; rfl)
      obtain rfl := Option.some.inj (hrow.symm.trans hr')
      rw [hrevoked] at hrevoked'
      cases hrevoked'
  | selected row redis seen =>
    unfold GuestPhase.next at h
    dsimp only at h
    split at h
    · cases h
    · cases h
      have hrow : s.row.isSome = true := by
        obtain ⟨r, hr, -⟩ := ht.row
        rw [Option.mem_def.mp hr]
        rfl
      refine ⟨hsame, ⟨cappedTtl_le _ _, hrow, fun seen' hs' => ?_⟩, rfl⟩
      obtain rfl := Option.some.inj hs'
      exact ht
  | answering session seen => cases h
  | clearing stamped redis =>
    cases h
    have hkept := hs.with_entry (redis.del = true) none (fun _ => nofun) fun _ => nofun
    exact ⟨hkept, fun hstamped => hkept.2.revoked (ht hstamped), rfl⟩
  | cleared stamped => cases h

/-- A call that ends keeps the world, and resolves with what it has seen. -/
theorem guest_ends (us : List GuestPhase) (hs : s.Kept config) (ht : t.Sound config s)
    (h : t.next config hashToken s us = .ends s' answer) :
    (s'.Kept config ∧ s.Later s') ∧ ∀ restaurantId tableId, .resolved restaurantId tableId ∈ answer →
      ∃ session seen, t = .answering session seen := by
  have hsame : s.Kept config ∧ s.Later s := ⟨hs, .refl s⟩
  cases t with
  | begun call =>
    cases call with
    | create restaurantId tableId guestToken redis =>
      unfold GuestPhase.next at h
      dsimp only at h
      split at h <;> cases h
      exact ⟨hsame, by simp⟩
    | resolve guestToken redis =>
      unfold GuestPhase.next at h
      dsimp only at h
      split at h
      · cases h
        exact ⟨hsame, by simp⟩
      · split at h <;> cases h
    | destroy redis => cases h
    | evict =>
      cases h
      refine ⟨⟨⟨nofun, nofun, hs.ended⟩, le_rfl, fun r hr => ⟨r, hr, rfl, id⟩, fun _ hR => .inl hR⟩,
        by simp⟩
    | elapse ms =>
      cases h
      have hlater : s.Later { s with now := s.now + ms } :=
        ⟨Nat.le_add_right _ _, fun r hr => ⟨r, hr, rfl, id⟩, fun _ hR => .inl hR⟩
      exact ⟨⟨⟨fun e he => (hs.entry e he).later hlater, hs.row, hs.ended⟩, hlater⟩, by simp⟩
  | inserted session redis => cases h
  | storing session ttl redis seen =>
    unfold GuestPhase.next at h
    cases seen <;> cases h
  | created =>
    cases h
    exact ⟨hsame, by simp⟩
  | found e presented redis =>
    unfold GuestPhase.next at h
    dsimp only at h
    split at h
    · cases h
      exact ⟨hsame, by simp⟩
    · split at h
      · cases h
      · split at h <;> cases h
  | sliding session ttl redis seen => cases h
  | dropping presented redis => cases presented <;> cases h
  | denying =>
    cases h
    exact ⟨hsame, by simp⟩
  | reading presented redis =>
    unfold GuestPhase.next at h
    dsimp only at h
    split at h <;> cases h
    exact ⟨hsame, by simp⟩
  | selected row redis seen =>
    unfold GuestPhase.next at h
    dsimp only at h
    split at h <;> cases h
    exact ⟨hsame, by simp⟩
  | answering session seen =>
    cases h
    exact ⟨hsame, fun _ _ _ => ⟨session, seen, rfl⟩⟩
  | clearing stamped redis => cases h
  | cleared stamped =>
    cases h
    refine ⟨?_, by simp⟩
    split
    · rename_i hstamped
      have hlater : s.Later { s with ended := s.ended.or (some s.now) } := by
        refine ⟨le_rfl, fun r hr => ⟨r, hr, rfl, id⟩, fun R hR => ?_⟩
        rcases Option.or_eq_some_iff.mp hR with hold | ⟨-, hnow⟩
        · exact .inl hold
        · exact .inr (Option.some.inj hnow).le
      exact ⟨⟨fun e he => (hs.entry e he).later hlater, hs.row, fun _ => ht hstamped⟩, hlater⟩
    · exact hsame

end Statements

/-! ## Every interleaving -/

/-- A session that resolves has not been destroyed for longer than the idle timeout, and its row has not
expired. -/
def EndsInTime (config : GuestConfig) (hashToken : String → String) (w : Sessions GuestWorld GuestPhase)
    (m : Move GuestCall) : Prop :=
  ∀ restaurantId tableId,
    .resolved restaurantId tableId ∈ ((guests config hashToken).machine.step w m).2 →
      (∀ R ∈ w.committed.ended, w.committed.now ≤ R + config.idle) ∧
        ∃ r ∈ w.committed.row, w.committed.now < r.expiresAt

section Runs

variable {config : GuestConfig} {hashToken : String → String}

theorem guestsRule : (guests config hashToken).Rule (fun _ => True) (InTime config)
    (fun s => s.Kept config) (fun s t => t.Sound config s) (fun _ _ => True) where
  symm _ _ _ := trivial
  start _ _ _ _ := ⟨trivial, fun _ _ => trivial⟩
  goes s us t hs ht hus hin s' t' answer hnext := by
    obtain ⟨⟨hkept, hlater⟩, hsound, -⟩ := guest_goes hs ht hin hnext
    exact ⟨hkept, hsound, fun u hu => ⟨(hus u hu).1.later hlater, trivial⟩⟩
  ends s us t hs ht hus _ s' answer hnext := by
    obtain ⟨⟨hkept, hlater⟩, -⟩ := guest_ends us hs ht hnext
    exact ⟨hkept, fun u hu => (hus u hu).1.later hlater⟩

/-- An answer in time is for a session that has not ended. -/
theorem ends_in_time {w : Sessions GuestWorld GuestPhase} {m : Move GuestCall}
    (hw : Protocol.Holds (fun s => s.Kept config) (fun s t => t.Sound config s) (fun _ _ => True) w)
    (hin : Protocol.Allowed (fun _ => True) (InTime config) w m) : EndsInTime config hashToken w m := by
  intro restaurantId tableId he
  obtain ⟨id, r, rfl, hfind, he⟩ := Protocol.answer_mem he
  have hs := hw.committed
  have ht := hw.session r (Table.find?_mem hfind)
  have hin := hin r hfind
  cases hnext : (guests config hashToken).next w.committed (w.others id) r.state with
  | waits =>
    rw [hnext] at he
    cases he
  | goes s' t' answer =>
    obtain ⟨-, -, rfl⟩ := guest_goes hs ht hin hnext
    rw [hnext] at he
    cases he
  | ends s' answer =>
    rw [hnext] at he
    obtain ⟨session, seen, hphase⟩ := (guest_ends (w.others id) hs ht hnext).2 restaurantId tableId he
    rw [hphase] at ht hin
    obtain ⟨hstands, hceiling⟩ := hin
    obtain ⟨row, hrow, hsince⟩ := ht.row
    refine ⟨fun R hR => ?_, row, hrow, hceiling row hrow hsince⟩
    exact (hstands (by rw [Option.mem_def.mp hR]; rfl)).trans (ht.bounds.ended R hR)

/-- However the calls interleave and whichever commands of Redis fail: while the entry is not extended
behind a destroy or found behind the ceiling of the row, and answers come in time, the session resolves
neither later than the idle timeout behind a destroy of it nor behind its ceiling. -/
theorem session_ends (config : GuestConfig) (hashToken : String → String) (now : Time)
    (moves : List (Move GuestCall))
    (hin : (guests config hashToken).machine.Every (Protocol.Allowed (fun _ => True) (InTime config))
      (Sessions.start (GuestWorld.empty now)) moves) :
    (guests config hashToken).machine.Every (EndsInTime config hashToken)
      (Sessions.start (GuestWorld.empty now)) moves :=
  guestsRule.every (fun _ _ hw hin => ends_in_time hw hin) (.start ⟨nofun, nofun, nofun⟩) hin

end Runs

/-! ## A session that is used on -/

/-- Two hours of silence, and twelve in all. -/
def twoHours : GuestConfig := ⟨7200, 43200⟩

def allAnswer : RedisAnswers := ⟨true, true, true⟩

def scanned : List (Move GuestCall) :=
  [.start 0 (.create 1 1 "token" allAnswer), .go 0, .go 0, .go 0, .go 0]

/-- The session resolves, is destroyed, and does not resolve any more. -/
def destroyed : List (Move GuestCall) :=
  scanned ++ [.start 1 (.elapse 1000), .go 1, .start 2 (.resolve "token" allAnswer), .go 2, .go 2, .go 2,
    .go 2, .start 3 (.destroy allAnswer), .go 3, .go 3, .go 3, .start 4 (.resolve "token" allAnswer), .go 4,
    .go 4]

theorem destroyed_ends : (guests twoHours id).machine.Every (EndsInTime twoHours id)
    (Sessions.start (GuestWorld.empty 0)) destroyed :=
  session_ends twoHours id 0 destroyed (by decide +kernel)

/-- Its `DEL` fails, and the entry is slid by every request. -/
def usedOn : List (Move GuestCall) :=
  scanned ++ [.start 1 (.destroy ⟨true, false, true⟩), .go 1, .go 1, .go 1,
    .start 2 (.elapse 3600000), .go 2, .start 3 (.resolve "token" allAnswer), .go 3, .go 3, .go 3, .go 3,
    .start 4 (.elapse 5400000), .go 4, .start 5 (.resolve "token" allAnswer), .go 5, .go 5, .go 5, .go 5]

/-- Two hours and a half behind the destroy the session resolves. -/
theorem destroyed_session_resolves : ¬(guests twoHours id).machine.Every (EndsInTime twoHours id)
    (Sessions.start (GuestWorld.empty 0)) usedOn := by
  intro hevery
  have hlast := Machine.every_iff_forall.mp hevery usedOn.dropLast (.go 5) [] rfl
  have hlate := (hlast 1 1 (by decide +kernel)).1 0 (by decide +kernel)
  revert hlate
  decide +kernel

end Splite
