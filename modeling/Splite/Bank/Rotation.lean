import Splite.Bank.ProviderConfigs

/-!
# Rotations of the credentials key (`rotate` of `payments/providerConfigs.js`)

A rotation that nothing runs beside seals a batch of the rows that are not under the active version.

* `rotation_advances`: one rotation by itself.
* `rotations_retire`: after enough of them the active key is all that is needed.
-/

namespace Splite.ProviderConfigs

section Alone

variable {Key : Type} {crypto : BoxCrypto Key Credentials} {keys : Nat → Option Key}
  {ring : KeyRing Key} {ivs : Nat → Iv} {s : Store}

/-- The ring from which all keys but the active one have been taken. -/
def KeyRing.activeOnly (ring : KeyRing Key) (version : Nat) : Option Key :=
  if version = ring.active then some ring.activeKey else none

theorem KeyRing.activeOnly_within (hring : Within ring.keys keys) : Within ring.activeOnly keys := by
  intro version key hkey
  unfold activeOnly at hkey
  split at hkey
  · rename_i hversion
    rw [← hkey, hversion]
    exact hring _ _ ring.active_mem
  · cases hkey

/-- How many rows are not under the active version of the ring. -/
def Store.stale (ring : KeyRing Key) (s : Store) : Nat :=
  (s.configs.rows.filter fun c => c.keyVersion ≠ ring.active).length

theorem Store.stale_reseal {c : ProviderConfig} {sealed : List UInt8 × Nat}
    (hfind : s.configs.find? (Keyed.key c) = some c) (hc : c.keyVersion ≠ ring.active)
    (hsealed : sealed.2 = ring.active) : (s.reseal (Keyed.key c) sealed).stale ring + 1 = s.stale ring := by
  have hstale : ∀ s : Store, (s.stale ring : Int) =
      s.configs.total fun c => if c.keyVersion ≠ ring.active then 1 else 0 := by
    intro s
    unfold Store.stale Table.total
    induction s.configs.rows with
    | nil => rfl
    | cons r rows ih =>
      rw [List.filter_cons, List.map_cons, List.sum_cons, ← ih]
      by_cases hr : r.keyVersion ≠ ring.active
      · simp [hr]
        omega
      · simp [hr]
  have hnew : ¬(c.resealed sealed).keyVersion ≠ ring.active := not_not.mpr hsealed
  have hafter := hstale (s.reseal (Keyed.key c) sealed)
  have hbefore := hstale s
  rw [show (s.reseal (Keyed.key c) sealed).configs = s.configs.update (Keyed.key c) (.resealed sealed)
    (ProviderConfig.resealed_key sealed) from rfl, Table.total_update hfind, if_neg hnew, if_pos hc,
    ← hbefore] at hafter
  omega

variable (crypto keys ring) in
/-- Rows of `s` have been sealed anew, `n` of them, and the ring has all versions still. -/
structure Advanced (s s' : Store) (n : Nat) : Prop where
  sound : s'.Sound crypto keys
  known : ∀ id sealed, s'.held id = some sealed → (ring.keys sealed.2).isSome = true
  stale : s'.stale ring + n = s.stale ring
  opens : ∀ id, (s'.held id).map (fun sealed => openBox crypto keys sealed.1) =
    (s.held id).map fun sealed => openBox crypto keys sealed.1

theorem Advanced.trans {s' s'' : Store} {n n' : Nat} (h : Advanced crypto keys ring s s' n)
    (h' : Advanced crypto keys ring s' s'' n') : Advanced crypto keys ring s s'' (n + n') where
  sound := h'.sound
  known := h'.known
  stale := by
    have := h.stale
    have := h'.stale
    omega
  opens id := (h'.opens id).trans (h.opens id)

theorem toReseal_known (iv : Iv) (hcrypto : crypto.Lawful) (hring : Within ring.keys keys)
    (hbyte : ring.active ≤ 255) {c : ProviderConfig} {value : Credentials}
    (hc : SealedAs crypto keys c.credentialsEncrypted c.keyVersion value)
    (hknown : (ring.keys c.keyVersion).isSome = true) :
    ∃ sealed, toReseal crypto ring iv c = .ok sealed ∧ sealed.2 = ring.active ∧
      SealedAs crypto keys sealed.1 sealed.2 value := by
  have hopen := openBox_sealed hcrypto hc hring
  rw [if_pos hknown] at hopen
  cases hseal : sealBox crypto ring iv value with
  | error err =>
    unfold sealBox at hseal
    rw [if_neg (Nat.not_lt.mpr hbyte)] at hseal
    cases hseal
  | ok sealed =>
    refine ⟨sealed, ?_, (sealBox_ok hring hseal).1, (sealBox_ok hring hseal).2⟩
    unfold toReseal
    rw [hopen]
    exact hseal

/-- Sealing one row anew. -/
theorem Store.reseal_advanced (hcrypto : crypto.Lawful) {c : ProviderConfig} {sealed : List UInt8 × Nat}
    {value : Credentials} (hs : s.Sound crypto keys)
    (hknown : ∀ id sealed, s.held id = some sealed → (ring.keys sealed.2).isSome = true)
    (hfind : s.configs.find? (Keyed.key c) = some c) (hversion : c.keyVersion ≠ ring.active)
    (hc : SealedAs crypto keys c.credentialsEncrypted c.keyVersion value) (hactive : sealed.2 = ring.active)
    (hsealed : SealedAs crypto keys sealed.1 sealed.2 value) :
    Advanced crypto keys ring s (s.reseal (Keyed.key c) sealed) 1 := by
  have hheld : s.held (Keyed.key c) = some (c.credentialsEncrypted, c.keyVersion) := by
    rw [Store.held, hfind]
    rfl
  refine ⟨fun id sealed' h => ?_, fun id sealed' h => ?_, Store.stale_reseal hfind hversion hactive,
    fun id => ?_⟩
  · rw [Store.held_reseal] at h
    split at h
    · obtain ⟨-, -, rfl⟩ := Option.map_eq_some_iff.mp h
      exact ⟨value, hsealed⟩
    · exact hs id sealed' h
  · rw [Store.held_reseal] at h
    split at h
    · obtain ⟨-, -, rfl⟩ := Option.map_eq_some_iff.mp h
      rw [hactive, ring.active_mem]
      rfl
    · exact hknown id sealed' h
  · rw [Store.held_reseal]
    by_cases hid : id = Keyed.key c
    · rw [if_pos hid, hid, hheld]
      simp only [Option.map_some, openBox_all hcrypto hc, openBox_all hcrypto hsealed]
    · rw [if_neg hid]

/-- The loop of a rotation by itself. -/
theorem resealing_alone (ivs : Nat → Iv) (hcrypto : crypto.Lawful) (hring : Within ring.keys keys)
    (hbyte : ring.active ≤ 255) (id read : Nat) : ∀ (rows : List ProviderConfig) (resealed : Nat) (s : Store), s.Sound crypto keys →
      (∀ id sealed, s.held id = some sealed → (ring.keys sealed.2).isSome = true) →
      (rows.map Keyed.key).Nodup →
      (∀ c ∈ rows, s.configs.find? (Keyed.key c) = some c ∧ c.keyVersion ≠ ring.active) →
      ∃ s', (credentials crypto).machine.run (.alone s id (.resealing ring ivs read rows resealed))
          (List.replicate (rows.length + 1) (.go id)) = Sessions.start s' ∧ s'.latest = s.latest ∧
        Advanced crypto keys ring s s' rows.length
  | [], resealed, s, hs, hknown, _, _ =>
    ⟨s, Protocol.go_alone_ends rfl, rfl, hs, hknown, rfl, fun _ => rfl⟩
  | c :: rows, resealed, s, hs, hknown, hnodup, hrows => by
    obtain ⟨hfind, hversion⟩ := hrows c List.mem_cons_self
    have hheld : s.held (Keyed.key c) = some (c.credentialsEncrypted, c.keyVersion) := by
      rw [Store.held, hfind]
      rfl
    obtain ⟨value, hc⟩ := hs _ _ hheld
    obtain ⟨sealed, hreseal, hactive, hsealed⟩ :=
      toReseal_known (ivs resealed) hcrypto hring hbyte hc (hknown _ _ hheld)
    have hone := Store.reseal_advanced hcrypto hs hknown hfind hversion hc hactive hsealed
    have hnext : (credentials crypto).next s [] (.resealing ring ivs read (c :: rows) resealed) =
        .goes (s.reseal (Keyed.key c) sealed) (.resealing ring ivs read rows (resealed + 1)) [] := by
      show CredentialPhase.next crypto s [] (.resealing ring ivs read (c :: rows) resealed) = _
      unfold CredentialPhase.next
      simp only [isCurrent_sealed hc, decide_eq_true_eq, if_neg hversion, hreseal]
    obtain ⟨hfresh, hnodup⟩ := List.nodup_cons.mp hnodup
    obtain ⟨s', hrun, hlatest, hrest⟩ := resealing_alone ivs hcrypto hring hbyte id read rows (resealed + 1)
      (s.reseal (Keyed.key c) sealed) hone.sound hone.known hnodup fun c' hc' => by
        obtain ⟨hfind', hversion'⟩ := hrows c' (List.mem_cons_of_mem _ hc')
        refine ⟨?_, hversion'⟩
        unfold Store.reseal
        rw [Table.find?_update, if_neg, hfind']
        intro heq
        exact hfresh (heq ▸ List.mem_map_of_mem hc')
    refine ⟨s', ?_, hlatest, ?_⟩
    · rw [List.length_cons, List.replicate_succ, Machine.run_cons, Protocol.go_alone_goes hnext]
      exact hrun
    · rw [List.length_cons, Nat.add_comm]
      exact hone.trans hrest

/-- The statements of a rotation that nothing runs beside. -/
def rotation (batch : Nat) (ring : KeyRing Key) (order : RowOrder ProviderConfig) (ivs : Nat → Iv)
    (s : Store) : List (CredentialMove Key) :=
  .start 0 (.rotate batch (.ok ring) order ivs) :: List.replicate (min batch (s.stale ring) + 2) (.go 0)

variable (crypto) in
/-- A rotation after another, each with its own order and its own nonces. -/
def rotateTimes (batch : Nat) (ring : KeyRing Key) (order : Nat → RowOrder ProviderConfig)
    (ivs : Nat → Nat → Iv) : Nat → Store → Store
  | 0, s => s
  | n + 1, s => rotateTimes batch ring order ivs n ((credentials crypto).machine.run (Sessions.start s)
      (rotation batch ring (order n) (ivs n) s)).committed

theorem rotation_advances (ivs : Nat → Iv) (hcrypto : crypto.Lawful) (hring : Within ring.keys keys)
    (hbyte : ring.active ≤ 255) (batch : Nat) (order : RowOrder ProviderConfig) (hs : s.Sound crypto keys)
    (hknown : ∀ id sealed, s.held id = some sealed → (ring.keys sealed.2).isSome = true) :
    ∃ s', (credentials crypto).machine.run (Sessions.start s) (rotation batch ring order ivs s) =
        Sessions.start s' ∧ s'.latest = s.latest ∧
      Advanced crypto keys ring s s' (min batch (s.stale ring)) := by
  let rows := order.limit batch (s.configs.rows.filter fun c => c.keyVersion ≠ ring.active)
  have hlength : rows.length = min batch (s.stale ring) := RowOrder.length_limit
  obtain ⟨s', hrun, hlatest, hadvanced⟩ := resealing_alone ivs hcrypto hring hbyte 0
    rows.length rows 0 s hs hknown
    (RowOrder.nodup_limit (s.configs.nodup.sublist (List.filter_sublist.map _))) fun c hc => by
      have hmem := List.mem_filter.mp (RowOrder.mem_of_limit hc)
      exact ⟨Table.find?_eq_some.mpr ⟨hmem.1, rfl⟩, by simpa using hmem.2⟩
  refine ⟨s', ?_, hlatest, hlength ▸ hadvanced⟩
  have hread : (credentials crypto).next s [] (.begun (.rotate batch (.ok ring) order ivs)) =
      .goes s (.resealing ring ivs rows.length rows 0) [] := rfl
  rw [rotation, Machine.run_cons, Protocol.start_alone, List.replicate_succ, Machine.run_cons,
    ← hlength, ← hrun]
  exact congrArg (fun w => (credentials crypto).machine.run w _) (Protocol.go_alone_goes hread)

/-- Rotations whose batches add up to the rows that are not under the active version leave none: every
row then opens with the active key alone, as what was stored last. -/
theorem rotations_retire (hcrypto : crypto.Lawful) (hring : Within ring.keys keys)
    (hbyte : ring.active ≤ 255) (batch : Nat) (order : Nat → RowOrder ProviderConfig) (ivs : Nat → Nat → Iv) :
    ∀ (n : Nat) (s : Store), s.Sound crypto keys → s.Serves crypto keys →
      (∀ id sealed, s.held id = some sealed → (ring.keys sealed.2).isSome = true) →
      s.stale ring ≤ n * batch →
      ((rotateTimes crypto batch ring order ivs n s).latest = s.latest ∧
        (rotateTimes crypto batch ring order ivs n s).Serves crypto ring.activeOnly)
  | 0, s, hs, hserves, _, hstale => by
    refine ⟨rfl, fun id => ?_⟩
    show _ = (s.latest id).map Except.ok
    rw [← hserves id]
    cases hfind : s.configs.find? id with
    | none =>
      simp only [rotateTimes, Store.held, hfind, Option.map_none]
    | some c =>
      have hheld : s.held id = some (c.credentialsEncrypted, c.keyVersion) := by
        rw [Store.held, hfind]
        rfl
      obtain ⟨value, hc⟩ := hs id _ hheld
      have hcurrent : c.keyVersion = ring.active := by
        by_contra hversion
        have hmem : c ∈ s.configs.rows.filter fun c => c.keyVersion ≠ ring.active :=
          List.mem_filter.mpr ⟨Table.find?_mem hfind, by simpa using hversion⟩
        have := List.length_pos_of_mem hmem
        unfold Store.stale at hstale
        omega
      simp only [rotateTimes, hheld, Option.map_some, openBox_all hcrypto hc]
      rw [openBox_sealed hcrypto hc (KeyRing.activeOnly_within hring), if_pos]
      simp [KeyRing.activeOnly, hcurrent]
  | n + 1, s, hs, hserves, hknown, hstale => by
    obtain ⟨s', hrun, hlatest, hadvanced⟩ :=
      rotation_advances (ivs n) hcrypto hring hbyte batch (order n) hs hknown
    have hserves' : s'.Serves crypto keys := fun id => by rw [hadvanced.opens, hlatest, hserves id]
    have hstale' : s'.stale ring ≤ n * batch := by
      have := hadvanced.stale
      rw [Nat.succ_mul] at hstale
      omega
    rw [rotateTimes, hrun, ← hlatest]
    exact rotations_retire hcrypto hring hbyte batch order ivs n s' hadvanced.sound hserves' hadvanced.known
      hstale'

end Alone

/-! ## Credentials under an old key -/

/-- A store with credentials under the old key. -/
def oldStore : Store :=
  Store.empty.upsert (1, "MERCANTIL")
    ((Sealing.sealed legibleCipher 1 7 zeroIv.1 (legible.stringify (credentialsWith "a"))).pack, 1)
    (credentialsWith "a")

theorem oldStore_held (id : Uuid × String) : oldStore.held id = if id = (1, "MERCANTIL") then
    some ((Sealing.sealed legibleCipher 1 7 zeroIv.1 (legible.stringify (credentialsWith "a"))).pack, 1)
    else none := Store.held_upsert

theorem oldStore_sealed : SealedAs legible newRing.keys
    (Sealing.sealed legibleCipher 1 7 zeroIv.1 (legible.stringify (credentialsWith "a"))).pack 1
    (credentialsWith "a") := ⟨by decide, 7, rfl, zeroIv, rfl⟩

/-- The new ring has all the keys. -/
theorem newRing_within : Within newRing.keys newRing.keys := fun _ _ h => h

theorem oldStore_retired :
    (rotateTimes legible 1 newRing (fun _ => .stored) (fun _ _ => zeroIv) 1 oldStore).Serves legible
      newRing.activeOnly := by
  refine (rotations_retire legible_lawful newRing_within (by decide) 1
    (fun _ => .stored) (fun _ _ => zeroIv) 1 oldStore (fun id sealed h => ?_) (fun id => ?_)
    (fun id sealed h => ?_) (by decide +kernel)).2
  · rw [oldStore_held] at h
    split at h
    · cases h
      exact ⟨_, oldStore_sealed⟩
    · cases h
  · rw [oldStore_held]
    by_cases hid : id = (1, "MERCANTIL")
    · rw [if_pos hid, Option.map_some, openBox_all legible_lawful oldStore_sealed, hid]
      rfl
    · rw [if_neg hid]
      simp [oldStore, Store.upsert, Store.empty, hid]
  · rw [oldStore_held] at h
    split at h
    · cases h
      rfl
    · cases h

end Splite.ProviderConfigs
