import Splite.Basic
import Splite.Lib.Except
import Splite.Lib.Interleave
import Splite.Lib.Js
import Splite.Lib.Query
import Splite.Lib.Sealing
import Splite.Mercantil.Matcher

/-!
# Bank credentials at rest (`utils/sealedBox.js`, `payments/credentials.js`, `payments/providerConfigs.js`)

`putCredentials`, `deleteConfig`, `markValidated`, `loadCredentials` and `rotate` beside each other,
statement by statement, in processes whose rings may hold different versions of the key. `rotate` reads
its rows once and writes them back one by one.

* `openBox_ok_iff`: what opens was sealed by a key of the ring.
* `openBox_sealed`: a blob opens in every ring that has its version, and says so where a ring has not.
* `credentialsRule`: what is stored is sealed under the version of its column; a rotation holds what it
  has read.
* `latest_served_iff`: a restaurant has the credentials that it stored last exactly as long as no rotation
  writes back what has been replaced since it was read.
-/

namespace Splite.ProviderConfigs

open Js

/-! ## The box -/

def IV_BYTES : Nat := 12

def TAG_BYTES : Nat := 16

/-- `randomBytes(IV_BYTES)`. -/
abbrev Iv := { iv : List UInt8 // iv.length = IV_BYTES }

/-- What `keyRing()` returns: the keys by their version, one of which is active. -/
structure KeyRing (Key : Type) where
  keys : Nat → Option Key
  active : Nat
  activeKey : Key
  active_mem : keys active = some activeKey

/-- What the box takes from `crypto` and from `JSON`. -/
structure BoxCrypto (Key Value : Type) where
  cipher : Sealing.Cipher Key
  stringify : Value → List UInt8
  parse : List UInt8 → Option Value

structure BoxCrypto.Lawful {Key Value : Type} (crypto : BoxCrypto Key Value) : Prop where
  cipher : crypto.cipher.Lawful TAG_BYTES
  parse_stringify : ∀ value, crypto.parse (crypto.stringify value) = some value
  stringify_ne_nil : ∀ value, crypto.stringify value ≠ []

/-- `unreadable(reason)`. -/
def unreadable (reason : String) : Err :=
  .api .paymentCredentialsUnreadable
    (if reason = "malformed" then "Stored credentials are malformed" else "Stored credentials " ++ reason) []

def notInRing (version : Nat) : Err :=
  unreadable ("sealed with key version " ++ toString version ++ ", which is not in the ring")

section Box

variable {Key Value : Type} (crypto : BoxCrypto Key Value)

/-- `seal(value)`: the blob and its version, which has to fit a byte. -/
def sealBox (ring : KeyRing Key) (iv : Iv) (value : Value) : Except Err (List UInt8 × Nat) :=
  if 255 < ring.active then
    .error (.error ("The value of \"value\" is out of range. It must be >= 0 and <= 255. Received " ++
      toString ring.active))
  else
    .ok ((Sealing.sealed crypto.cipher (.ofNat ring.active) ring.activeKey iv
      (crypto.stringify value)).pack, ring.active)

/-- `open(blob)`. -/
def openBox (keys : Nat → Option Key) (blob : List UInt8) : Except Err Value :=
  match Sealing.Blob.unpack IV_BYTES TAG_BYTES blob with
  | none => .error (unreadable "malformed")
  | some b =>
    match keys b.version.toNat with
    | none => .error (notInRing b.version.toNat)
    | some key =>
      match (crypto.cipher.decrypt key b.iv b.tag b.ciphertext).bind crypto.parse with
      | none => .error (unreadable "could not be authenticated")
      | some value => .ok value

/-- `isCurrent(blob)`. -/
def isCurrent (ring : KeyRing Key) : List UInt8 → Bool
  | [] => false
  | version :: _ => version.toNat = ring.active

end Box

/-! ## The store -/

/-- What the schema of `MERCANTIL` lets through. -/
structure Credentials where
  merchantId : String
  clientId : String
  secretKey : String
  integratorId : String
  terminalId : String
  deriving DecidableEq, Repr

/-- `.length` of a string: its UTF-16 units. -/
def utf16Length (s : String) : Nat := (s.toList.map fun c => if c.toNat < 0x10000 then 1 else 2).sum

/-- `Joi.string().trim().min(1).max(max).required()`. -/
def requiredString (max : Nat) (value : Option Json) : Option String :=
  match value with
  | some (.str s) =>
    let text := String.ofList (Mercantil.trimmed s.toList)
    if text = "" ∨ max < utf16Length text then none else some text
  | _ => none

/-- `CREDENTIAL_SCHEMAS.MERCANTIL`, of a body. -/
def mercantilSchema (credentials : Json) : Option Credentials :=
  match credentials with
  | .obj fields => do
    guard (fields.all fun f =>
      f.1 ∈ ["merchantId", "clientId", "secretKey", "integratorId", "terminalId"])
    let merchantId ← requiredString 64 (credentials.prop "merchantId")
    let clientId ← requiredString 128 (credentials.prop "clientId")
    let secretKey ← requiredString 256 (credentials.prop "secretKey")
    let integratorId ← requiredString 64 (credentials.prop "integratorId")
    let terminalId ← requiredString 64 (credentials.prop "terminalId")
    return { merchantId, clientId, secretKey, integratorId, terminalId }
  | _ => none

/-- `schemaFor(provider)`. -/
def schemaFor (provider : String) : Except Err (Json → Option Credentials) :=
  if provider = "MERCANTIL" then .ok mercantilSchema
  else
    .error (.api .paymentProviderUnknown "No adapter for that provider"
      [("provider", provider), ("supported", "MERCANTIL")])

def noConfiguration (provider : String) : Err :=
  .api .paymentProviderUnknown "No configuration for that provider" [("provider", provider)]

def noCredentials (provider : String) : Err :=
  .api .paymentProviderUnknown "No credentials for that provider" [("provider", provider)]

def credentialsInvalid : Err :=
  .api .validationFailed "Credentials are not valid for that provider" []

/-- A row of `payment_provider_configs`, with its check. -/
structure ProviderConfig where
  restaurantId : Uuid
  provider : String
  credentialsEncrypted : List UInt8
  keyVersion : Nat
  enabled : Bool
  validatedAt : Option Time
  enabled_requires_validation : enabled = true → validatedAt.isSome = true

instance : Keyed ProviderConfig (Uuid × String) := ⟨fun c => (c.restaurantId, c.provider)⟩

namespace ProviderConfig

/-- The row that `putCredentials` stores. -/
def unproven (id : Uuid × String) (sealed : List UInt8 × Nat) : ProviderConfig where
  restaurantId := id.1
  provider := id.2
  credentialsEncrypted := sealed.1
  keyVersion := sealed.2
  enabled := false
  validatedAt := none
  enabled_requires_validation := nofun

/-- The `UPDATE` of `markValidated`. -/
def validated (now : Time) (enable : Bool) (c : ProviderConfig) : ProviderConfig :=
  { c with validatedAt := some now, enabled := enable, enabled_requires_validation := fun _ => rfl }

/-- The `UPDATE` of `rotate`. -/
def resealed (sealed : List UInt8 × Nat) (c : ProviderConfig) : ProviderConfig :=
  { c with credentialsEncrypted := sealed.1, keyVersion := sealed.2 }

/-- What `ON CONFLICT … DO UPDATE` leaves of a row. -/
def replaced (sealed : List UInt8 × Nat) (c : ProviderConfig) : ProviderConfig :=
  unproven (Keyed.key c) sealed

theorem validated_key (now : Time) (enable : Bool) (c : ProviderConfig) :
    Keyed.key (c.validated now enable) = Keyed.key c := rfl

theorem resealed_key (sealed : List UInt8 × Nat) (c : ProviderConfig) :
    Keyed.key (c.resealed sealed) = Keyed.key c := rfl

theorem replaced_key (sealed : List UInt8 × Nat) (c : ProviderConfig) :
    Keyed.key (c.replaced sealed) = Keyed.key c := rfl

end ProviderConfig

/-- The table, and what each restaurant has stored last for each provider. -/
structure Store where
  configs : Table ProviderConfig
  latest : Uuid × String → Option Credentials

def Store.empty : Store := ⟨∅, fun _ => none⟩

namespace Store

/-- The blob and the version in the columns of a row. -/
def held (s : Store) (id : Uuid × String) : Option (List UInt8 × Nat) :=
  (s.configs.find? id).map fun c => (c.credentialsEncrypted, c.keyVersion)

/-- `enabled` of a row. -/
def enabled (s : Store) (id : Uuid × String) : Bool := (s.configs.find? id).any ProviderConfig.enabled

/-- `INSERT … ON CONFLICT (restaurant_id, provider) DO UPDATE`. -/
def upsert (s : Store) (id : Uuid × String) (sealed : List UInt8 × Nat) (value : Credentials) : Store where
  configs := (s.configs.insert? (.unproven id sealed)).getD
    (s.configs.update id (.replaced sealed) (ProviderConfig.replaced_key sealed))
  latest := fun id' => if id' = id then some value else s.latest id'

/-- `DELETE … WHERE restaurant_id = $1 AND provider = $2`. -/
def delete (s : Store) (id : Uuid × String) : Store where
  configs := s.configs.deleteWhere fun c => Keyed.key c = id
  latest := fun id' => if id' = id then none else s.latest id'

def validate (s : Store) (id : Uuid × String) (now : Time) (enable : Bool) : Store :=
  { s with configs := s.configs.update id (.validated now enable) (ProviderConfig.validated_key now enable) }

def reseal (s : Store) (id : Uuid × String) (sealed : List UInt8 × Nat) : Store :=
  { s with configs := s.configs.update id (.resealed sealed) (ProviderConfig.resealed_key sealed) }

end Store

/-! ## The calls -/

/-- A call, in a process where `keyRing()` returns or throws `ring`. -/
inductive CredentialCall (Key : Type) where
  | putCredentials (id : Uuid × String) (credentials : Json) (ring : Except Err (KeyRing Key)) (iv : Iv)
  | deleteConfig (id : Uuid × String)
  | markValidated (id : Uuid × String) (enable : Bool) (now : Time)
  | loadCredentials (id : Uuid × String) (ring : Except Err (KeyRing Key))
  | rotate (batch : Nat) (ring : Except Err (KeyRing Key)) (order : RowOrder ProviderConfig)
      (ivs : Nat → Iv)

/-- The next statement of a call. -/
inductive CredentialPhase (Key : Type) where
  | begun (call : CredentialCall Key)
  /-- The loop of `rotate`: the rows that are left of the ones it has read, and how many it has sealed. -/
  | resealing (ring : KeyRing Key) (ivs : Nat → Iv) (read : Nat) (rows : List ProviderConfig)
      (resealed : Nat)

inductive CredentialEvent where
  | stored (id : Uuid × String)
  | deleted (id : Uuid × String)
  | validated (id : Uuid × String)
  | loaded (id : Uuid × String) (credentials : Credentials) (enabled : Bool)
  | rotated (resealed remaining : Nat)
  | notLoaded (id : Uuid × String) (err : Err)
  | refused (err : Err)
  deriving DecidableEq

section Services

variable {Key : Type} (crypto : BoxCrypto Key Credentials)

/-- What `putCredentials` stores. -/
def toStore (id : Uuid × String) (credentials : Json) (ring : Except Err (KeyRing Key)) (iv : Iv) :
    Except Err (Credentials × List UInt8 × Nat) := do
  let schema ← schemaFor id.2
  let value ← (schema credentials).elim (.error credentialsInvalid) .ok
  let ring ← ring
  let sealed ← sealBox crypto ring iv value
  return (value, sealed)

/-- What `loadCredentials` returns of the row it has read. -/
def toLoad (id : Uuid × String) (ring : Except Err (KeyRing Key)) (row : Option ProviderConfig) :
    Except Err (Credentials × Bool) :=
  match row with
  | none => .error (noCredentials id.2)
  | some c => do
    let ring ← ring
    let credentials ← openBox crypto ring.keys c.credentialsEncrypted
    return (credentials, c.enabled)

/-- What `rotate` writes for a row. -/
def toReseal (ring : KeyRing Key) (iv : Iv) (c : ProviderConfig) : Except Err (List UInt8 × Nat) := do
  sealBox crypto ring iv (← openBox crypto ring.keys c.credentialsEncrypted)

def CredentialPhase.next (s : Store) (_ : List (CredentialPhase Key)) :
    CredentialPhase Key → Advance Store (CredentialPhase Key) CredentialEvent
  | .begun (.putCredentials id credentials ring iv) =>
    match toStore crypto id credentials ring iv with
    | .error err => .ends s [.refused err]
    | .ok (value, sealed) => .ends (s.upsert id sealed value) [.stored id]
  | .begun (.deleteConfig id) =>
    match s.configs.find? id with
    | none => .ends s [.refused (noConfiguration id.2)]
    | some _ => .ends (s.delete id) [.deleted id]
  | .begun (.markValidated id enable now) =>
    match s.configs.find? id with
    | none => .ends s [.refused (noConfiguration id.2)]
    | some _ => .ends (s.validate id now enable) [.validated id]
  | .begun (.loadCredentials id ring) =>
    match toLoad crypto id ring (s.configs.find? id) with
    | .error err => .ends s [.notLoaded id err]
    | .ok (credentials, enabled) => .ends s [.loaded id credentials enabled]
  | .begun (.rotate batch ring order ivs) =>
    match ring with
    | .error err => .ends s [.refused err]
    | .ok ring =>
      let rows := order.limit batch (s.configs.rows.filter fun c => c.keyVersion ≠ ring.active)
      .goes s (.resealing ring ivs rows.length rows 0) []
  | .resealing _ _ read [] resealed => .ends s [.rotated resealed (read - resealed)]
  | .resealing ring ivs read (c :: rows) resealed =>
    if isCurrent ring c.credentialsEncrypted then .goes s (.resealing ring ivs read rows resealed) []
    else
      match toReseal crypto ring (ivs resealed) c with
      | .error err => .ends s [.refused err]
      | .ok sealed =>
        .goes (s.reseal (Keyed.key c) sealed) (.resealing ring ivs read rows (resealed + 1)) []

def credentials : Protocol Store (CredentialPhase Key) (CredentialCall Key) CredentialEvent where
  start := .begun
  next := CredentialPhase.next crypto

end Services

/-! ## What is sealed opens -/

section Sealed

variable {Key Value : Type} {crypto : BoxCrypto Key Value} {keys keys' : Nat → Option Key}
  {ring : KeyRing Key} {blob : List UInt8} {version : Nat} {value value' : Value}

/-- The blob was sealed of the value, under this version of the key. -/
structure SealedAs (crypto : BoxCrypto Key Value) (keys : Nat → Option Key) (blob : List UInt8)
    (version : Nat) (value : Value) : Prop where
  byte : version ≤ 255
  made : ∃ key, keys version = some key ∧ ∃ iv : Iv,
    blob = (Sealing.sealed crypto.cipher (.ofNat version) key iv (crypto.stringify value)).pack

/-- A version that the ring has is the same key in `keys`. -/
def Within (keys' keys : Nat → Option Key) : Prop :=
  ∀ version key, keys' version = some key → keys version = some key

theorem SealedAs.version_toNat (h : SealedAs crypto keys blob version value) :
    (UInt8.ofNat version).toNat = version := by
  rw [UInt8.toNat_ofNat']
  exact Nat.mod_eq_of_lt (Nat.lt_succ_of_le h.byte)

theorem sealBox_ok {iv : Iv} {sealed : List UInt8 × Nat} (hring : Within ring.keys keys)
    (h : sealBox crypto ring iv value = .ok sealed) :
    sealed.2 = ring.active ∧ SealedAs crypto keys sealed.1 sealed.2 value := by
  unfold sealBox at h
  split at h
  · cases h
  · rename_i hbyte
    cases h
    exact ⟨rfl, Nat.not_lt.mp hbyte, _, hring _ _ ring.active_mem, iv, rfl⟩

/-- A sealed blob opens in every ring that has its version, and no other. -/
theorem openBox_sealed (hcrypto : crypto.Lawful) (h : SealedAs crypto keys blob version value)
    (hkeys : Within keys' keys) :
    openBox crypto keys' blob =
      if (keys' version).isSome then .ok value else .error (notInRing version) := by
  obtain ⟨key, hkey, iv, rfl⟩ := h.made
  have hsized := Sealing.sealed_sized (.ofNat version) key hcrypto.cipher iv.2
    (hcrypto.stringify_ne_nil value)
  unfold openBox
  rw [Sealing.Blob.unpack_pack hsized]
  have hversion : (Sealing.sealed crypto.cipher (.ofNat version) key iv
      (crypto.stringify value)).version.toNat = version := h.version_toNat
  simp only [hversion]
  cases hkey' : keys' version with
  | none => rfl
  | some key' =>
    obtain rfl : key' = key := Option.some.inj ((hkeys _ _ hkey').symm.trans hkey)
    have hdec := (hcrypto.cipher.decrypt_iff key' iv _ _ (crypto.stringify value)).mpr rfl
    simp only [Sealing.sealed, hdec, Option.bind_some, hcrypto.parse_stringify, Option.isSome_some, if_true]

/-- What opens was sealed by a key of the ring, of a text that is read as the value; whatever else is in
the column does not open. -/
theorem openBox_ok_iff (hcrypto : crypto.Lawful) :
    openBox crypto keys blob = .ok value ↔ ∃ version key iv plaintext, keys version.toNat = some key ∧
      iv.length = IV_BYTES ∧ plaintext ≠ [] ∧ crypto.parse plaintext = some value ∧
      blob = (Sealing.sealed crypto.cipher version key iv plaintext).pack := by
  constructor
  · intro h
    unfold openBox at h
    cases hunpack : Sealing.Blob.unpack IV_BYTES TAG_BYTES blob with
    | none => simp [hunpack] at h
    | some b =>
      obtain ⟨hpack, hsized⟩ := Sealing.Blob.pack_unpack hunpack
      simp only [hunpack] at h
      cases hkey : keys b.version.toNat with
      | none => simp [hkey] at h
      | some key =>
        simp only [hkey] at h
        cases hparse : (crypto.cipher.decrypt key b.iv b.tag b.ciphertext).bind crypto.parse with
        | none => simp [hparse] at h
        | some value' =>
          obtain rfl : value' = value := by simpa [hparse] using h
          obtain ⟨plaintext, hdec, hvalue⟩ := Option.bind_eq_some_iff.mp hparse
          have hopened : Sealing.opened crypto.cipher keys b = some plaintext := by
            rw [Sealing.opened, hkey]
            exact hdec
          obtain ⟨key', hkey', hb⟩ := (Sealing.opened_iff hcrypto.cipher).mp hopened
          refine ⟨b.version, key', b.iv, plaintext, hkey', hsized.iv, ?_, hvalue, hb ▸ hpack.symm⟩
          rintro rfl
          apply hsized.ciphertext
          have := hcrypto.cipher.ciphertext_length key' b.iv []
          rw [hb]
          exact List.length_eq_zero_iff.mp this
  · rintro ⟨version, key, iv, plaintext, hkey, hiv, hp, hvalue, rfl⟩
    have hsized := Sealing.sealed_sized version key hcrypto.cipher hiv hp
    have hdec := (hcrypto.cipher.decrypt_iff key iv _ _ plaintext).mpr rfl
    unfold openBox
    rw [Sealing.Blob.unpack_pack hsized]
    simp only [Sealing.sealed, hkey, hdec, Option.bind_some, hvalue]

theorem openBox_all (hcrypto : crypto.Lawful) (h : SealedAs crypto keys blob version value) :
    openBox crypto keys blob = .ok value := by
  obtain ⟨key, hkey, -⟩ := h.made
  rw [openBox_sealed hcrypto h fun _ _ => id, hkey]
  rfl

theorem SealedAs.unique (hcrypto : crypto.Lawful) (h : SealedAs crypto keys blob version value)
    (h' : SealedAs crypto keys blob version value') : value = value' :=
  Except.ok.inj ((openBox_all hcrypto h).symm.trans (openBox_all hcrypto h'))

theorem isCurrent_sealed (h : SealedAs crypto keys blob version value) :
    isCurrent ring blob = decide (version = ring.active) := by
  obtain ⟨key, -, iv, rfl⟩ := h.made
  simp only [isCurrent, Sealing.Blob.pack, Sealing.sealed, h.version_toNat]

end Sealed

/-! ## What a statement does -/

namespace Store

variable {s : Store} {id id' : Uuid × String} {sealed : List UInt8 × Nat} {value : Credentials}

theorem find?_upsert : (s.upsert id sealed value).configs.find? id' =
    if id' = id then some (.unproven id sealed) else s.configs.find? id' := by
  unfold upsert
  cases hins : s.configs.insert? (.unproven id sealed) with
  | some configs => exact Table.find?_insert? hins
  | none =>
    rw [Option.getD_none, Table.find?_update]
    by_cases hid : id' = id
    · subst hid
      rw [if_pos rfl, if_pos rfl]
      cases hfind : s.configs.find? id' with
      | none =>
        -- A row that is not there could have been inserted.
        obtain ⟨t, ht⟩ := Table.exists_insert? (r := ProviderConfig.unproven id' sealed)
          fun c hc => Table.find?_eq_none.mp hfind c hc
        cases hins.symm.trans ht
      | some c =>
        have hkey : Keyed.key c = id' := Table.find?_key hfind
        rw [Option.map_some, ← hkey]
        rfl
    · rw [if_neg hid, if_neg hid]

theorem held_upsert : (s.upsert id sealed value).held id' = if id' = id then some sealed else s.held id' := by
  simp only [held, find?_upsert]
  split <;> rfl

theorem find?_delete :
    (s.delete id).configs.find? id' = if id' = id then none else s.configs.find? id' := by
  unfold delete
  by_cases hid : id' = id
  · rw [if_pos hid]
    refine Table.find?_eq_none.mpr fun c hc => ?_
    have := (Table.mem_deleteWhere.mp hc).2
    simpa [hid] using this
  · rw [if_neg hid]
    cases hfind : s.configs.find? id' with
    | none =>
      refine Table.find?_eq_none.mpr fun c hc => ?_
      exact Table.find?_eq_none.mp hfind c (Table.mem_deleteWhere.mp hc).1
    | some c =>
      rw [Table.find?_deleteWhere hfind, if_neg]
      simpa [Table.find?_key hfind] using hid

theorem held_delete : (s.delete id).held id' = if id' = id then none else s.held id' := by
  simp only [held, find?_delete]
  split <;> rfl

theorem held_validate {now : Time} {enable : Bool} : (s.validate id now enable).held id' = s.held id' := by
  simp only [held, validate, Table.find?_update]
  split
  · rw [Option.map_map]
    rfl
  · rfl

theorem held_reseal : (s.reseal id sealed).held id' =
    if id' = id then (s.held id').map fun _ => sealed else s.held id' := by
  simp only [held, reseal, Table.find?_update]
  split
  · rw [Option.map_map, Option.map_map]
    rfl
  · rfl

theorem enabled_reseal : (s.reseal id sealed).enabled id' = s.enabled id' := by
  simp only [enabled, reseal, Table.find?_update]
  split
  · rw [Option.any_map]
    rfl
  · rfl

end Store

section Statements

variable {Key : Type} (crypto : BoxCrypto Key Credentials) (keys : Nat → Option Key)

/-- Every row is sealed under the version of its column. -/
def Store.Sound (s : Store) : Prop :=
  ∀ id sealed, s.held id = some sealed → ∃ value, SealedAs crypto keys sealed.1 sealed.2 value

/-- With all the keys, every row opens to what was stored last, and there is none where nothing is. -/
def Store.Serves (s : Store) : Prop :=
  ∀ id, (s.held id).map (fun sealed => openBox crypto keys sealed.1) = (s.latest id).map Except.ok

/-- `keyRing()` of the process that a call runs in. -/
def CredentialCall.ring : CredentialCall Key → Option (KeyRing Key)
  | .putCredentials _ _ ring _ | .loadCredentials _ ring | .rotate _ ring _ _ => ring.toOption
  | .deleteConfig _ | .markValidated _ _ _ => none

/-- The processes agree on what the key of a version is. -/
def CredentialCall.Agrees (call : CredentialCall Key) : Prop := ∀ ring ∈ call.ring, Within ring.keys keys

/-- What a call knows by its next statement. -/
def CredentialPhase.Sound : CredentialPhase Key → Prop
  | .begun call => call.Agrees keys
  | .resealing ring _ read rows resealed => Within ring.keys keys ∧ read = resealed + rows.length ∧
    ∀ c ∈ rows, c.keyVersion ≠ ring.active ∧
      ∃ value, SealedAs crypto keys c.credentialsEncrypted c.keyVersion value

/-- A rotation that writes a row back has read what its restaurant has stored last. -/
def Unreplaced (s : Store) (_ : List (CredentialPhase Key)) : CredentialPhase Key → Prop
  | .resealing ring ivs _ (c :: _) resealed =>
    (toReseal crypto ring (ivs resealed) c).isOk = true →
      ∀ value ∈ s.latest (Keyed.key c), openBox crypto keys c.credentialsEncrypted = .ok value
  | _ => True

instance (s : Store) (us : List (CredentialPhase Key)) :
    ∀ t, Decidable (Unreplaced crypto keys s us t)
  | .resealing ring ivs _ (c :: _) resealed => inferInstanceAs (Decidable
      ((toReseal crypto ring (ivs resealed) c).isOk = true → ∀ value ∈ s.latest (Keyed.key c),
        openBox crypto keys c.credentialsEncrypted = .ok value))
  | .resealing _ _ _ [] _ | .begun _ => isTrue trivial

/-- What a statement commits and answers. -/
inductive Does (s : Store) : CredentialPhase Key → Store → List CredentialEvent → Prop where
  | stored {id : Uuid × String} {body : Json} {ring : Except Err (KeyRing Key)} {iv : Iv}
      {value : Credentials} {sealed : List UInt8 × Nat} : SealedAs crypto keys sealed.1 sealed.2 value →
      Does s (.begun (.putCredentials id body ring iv)) (s.upsert id sealed value) [.stored id]
  | deleted {id : Uuid × String} : Does s (.begun (.deleteConfig id)) (s.delete id) [.deleted id]
  | validated {id : Uuid × String} {enable : Bool} {now : Time} :
      Does s (.begun (.markValidated id enable now)) (s.validate id now enable) [.validated id]
  | loaded {id : Uuid × String} {ring : Except Err (KeyRing Key)} {value : Credentials} {enabled : Bool} :
      (s.held id).map (fun sealed => openBox crypto keys sealed.1) = some (.ok value) →
      Does s (.begun (.loadCredentials id ring)) s [.loaded id value enabled]
  | notLoaded {id : Uuid × String} {ring : Except Err (KeyRing Key)} {err : Err} :
      (s.held id = none ∧ err = noCredentials id.2) ∨ ring = .error err ∨
        (∃ r sealed, ring = .ok r ∧ s.held id = some sealed ∧ r.keys sealed.2 = none ∧
          err = notInRing sealed.2) →
      Does s (.begun (.loadCredentials id ring)) s [.notLoaded id err]
  | resealed {ring : KeyRing Key} {ivs : Nat → Iv} {read resealed : Nat} {c : ProviderConfig}
      {rows : List ProviderConfig} {sealed : List UInt8 × Nat} {value : Credentials} :
      toReseal crypto ring (ivs resealed) c = .ok sealed →
      SealedAs crypto keys c.credentialsEncrypted c.keyVersion value →
      SealedAs crypto keys sealed.1 sealed.2 value →
      Does s (.resealing ring ivs read (c :: rows) resealed) (s.reseal (Keyed.key c) sealed) []
  | rotated {ring : KeyRing Key} {ivs : Nat → Iv} {resealed : Nat} :
      Does s (.resealing ring ivs resealed [] resealed) s [.rotated resealed 0]
  | refused {t : CredentialPhase Key} {err : Err} :
      (∀ ring ivs read c rows resealed, t = .resealing ring ivs read (c :: rows) resealed →
        toReseal crypto ring (ivs resealed) c = .error err) →
      Does s t s [.refused err]
  | read {batch : Nat} {ring : Except Err (KeyRing Key)} {order : RowOrder ProviderConfig}
      {ivs : Nat → Iv} : Does s (.begun (.rotate batch ring order ivs)) s []

variable {crypto keys} {s s' : Store} (us : List (CredentialPhase Key)) {t t' : CredentialPhase Key}
  {answer : List CredentialEvent}

theorem toReseal_ok (hcrypto : crypto.Lawful) {ring : KeyRing Key} {iv : Iv} {c : ProviderConfig}
    {sealed : List UInt8 × Nat} {value : Credentials} (hring : Within ring.keys keys)
    (hc : SealedAs crypto keys c.credentialsEncrypted c.keyVersion value)
    (h : toReseal crypto ring iv c = .ok sealed) : SealedAs crypto keys sealed.1 sealed.2 value := by
  unfold toReseal at h
  rw [openBox_sealed hcrypto hc hring] at h
  split at h
  · exact (sealBox_ok hring h).2
  · cases h

/-- No statement waits for another. -/
theorem next_ne_waits : t.next crypto s us ≠ .waits := by
  intro h
  cases t with
  | begun call =>
    cases call with
    | rotate batch ring order ivs => cases ring <;> cases h
    | _ =>
      unfold CredentialPhase.next at h
      dsimp only at h
      split at h <;> cases h
  | resealing ring ivs read rows resealed =>
    cases rows with
    | nil => cases h
    | cons c rows =>
      unfold CredentialPhase.next at h
      dsimp only at h
      split at h
      · cases h
      · split at h <;> cases h

theorem next_goes (hcrypto : crypto.Lawful) (hs : s.Sound crypto keys) (ht : t.Sound crypto keys)
    (h : t.next crypto s us = .goes s' t' answer) :
    Does crypto keys s t s' answer ∧ t'.Sound crypto keys := by
  cases t with
  | begun call =>
    cases call with
    | putCredentials id body ring iv =>
      unfold CredentialPhase.next at h
      dsimp only at h
      split at h <;> cases h
    | deleteConfig id =>
      unfold CredentialPhase.next at h
      dsimp only at h
      split at h <;> cases h
    | markValidated id enable now =>
      unfold CredentialPhase.next at h
      dsimp only at h
      split at h <;> cases h
    | loadCredentials id ring =>
      unfold CredentialPhase.next at h
      dsimp only at h
      split at h <;> cases h
    | rotate batch ring order ivs =>
      cases ring with
      | error err => cases h
      | ok ring =>
        cases h
        refine ⟨.read, ht ring rfl, (Nat.zero_add _).symm, fun c hc => ?_⟩
        have hmem := RowOrder.mem_of_limit hc
        rw [List.mem_filter] at hmem
        refine ⟨by simpa using hmem.2, ?_⟩
        have hfind := Table.find?_eq_some.mpr ⟨hmem.1, rfl⟩
        exact hs (Keyed.key c) (c.credentialsEncrypted, c.keyVersion) (by rw [Store.held, hfind]; rfl)
  | resealing ring ivs read rows resealed =>
    cases rows with
    | nil => cases h
    | cons c rows =>
      obtain ⟨hring, hread, hrows⟩ := ht
      obtain ⟨hversion, value, hc⟩ := hrows c List.mem_cons_self
      unfold CredentialPhase.next at h
      dsimp only at h
      rw [isCurrent_sealed hc, if_neg (by simpa using hversion)] at h
      split at h
      · cases h
      · rename_i sealed hsealed
        cases h
        refine ⟨.resealed hsealed hc (toReseal_ok hcrypto hring hc hsealed), hring, ?_,
          fun c' hc' => hrows c' (List.mem_cons_of_mem _ hc')⟩
        rw [hread, List.length_cons]
        omega

theorem next_ends (hcrypto : crypto.Lawful) (hs : s.Sound crypto keys) (ht : t.Sound crypto keys)
    (h : t.next crypto s us = .ends s' answer) : Does crypto keys s t s' answer := by
  cases t with
  | begun call =>
    cases call with
    | putCredentials id body ring iv =>
      unfold CredentialPhase.next at h
      dsimp only at h
      split at h
      · cases h
        exact .refused nofun
      · rename_i value sealed hstore
        cases h
        refine .stored ?_
        unfold toStore at hstore
        obtain ⟨schema, -, hstore⟩ := Except.bind_eq_ok.mp hstore
        obtain ⟨value', -, hstore⟩ := Except.bind_eq_ok.mp hstore
        obtain ⟨r, hr, hstore⟩ := Except.bind_eq_ok.mp hstore
        obtain ⟨sealed', hsealed, hstore⟩ := Except.bind_eq_ok.mp hstore
        cases hstore
        subst hr
        exact (sealBox_ok (ht r rfl) hsealed).2
    | deleteConfig id =>
      unfold CredentialPhase.next at h
      dsimp only at h
      split at h <;> cases h
      · exact .refused nofun
      · exact .deleted
    | markValidated id enable now =>
      unfold CredentialPhase.next at h
      dsimp only at h
      split at h <;> cases h
      · exact .refused nofun
      · exact .validated
    | loadCredentials id ring =>
      unfold CredentialPhase.next at h
      dsimp only at h
      cases hfind : s.configs.find? id with
      | none =>
        rw [hfind] at h
        cases h
        exact .notLoaded (.inl ⟨by rw [Store.held, hfind]; rfl, rfl⟩)
      | some c =>
        have hheld : s.held id = some (c.credentialsEncrypted, c.keyVersion) := by
          rw [Store.held, hfind]
          rfl
        obtain ⟨value, hc⟩ := hs id _ hheld
        rw [hfind] at h
        cases ring with
        | error err =>
          cases h
          exact .notLoaded (.inr (.inl rfl))
        | ok ring =>
          have hopen := openBox_sealed hcrypto hc (ht ring rfl)
          cases hkey : ring.keys c.keyVersion with
          | none =>
            rw [hkey] at hopen
            simp only [toLoad, bind, Except.bind, hopen] at h
            cases h
            exact .notLoaded (.inr (.inr ⟨ring, _, rfl, hheld, hkey, rfl⟩))
          | some key =>
            rw [hkey] at hopen
            simp only [toLoad, bind, Except.bind, hopen] at h
            cases h
            refine .loaded ?_
            rw [hheld, Option.map_some, openBox_all hcrypto hc]
    | rotate batch ring order ivs =>
      cases ring with
      | error err =>
        cases h
        exact .refused nofun
      | ok ring => cases h
  | resealing ring ivs read rows resealed =>
    obtain ⟨hring, hread, hrows⟩ := ht
    cases rows with
    | nil =>
      cases h
      obtain rfl : read = resealed := by simpa using hread
      rw [Nat.sub_self]
      exact .rotated
    | cons c rows =>
      unfold CredentialPhase.next at h
      dsimp only at h
      split at h
      · cases h
      · split at h <;> cases h
        rename_i err herr
        refine .refused fun ring' ivs' read' c' rows' resealed' heq => ?_
        cases heq
        exact herr

/-! ## What every statement keeps -/

theorem Does.sound (h : Does crypto keys s t s' answer) (hs : s.Sound crypto keys) :
    s'.Sound crypto keys := by
  intro id sealed' hheld
  cases h with
  | stored hsealed =>
    rw [Store.held_upsert] at hheld
    split at hheld
    · cases hheld
      exact ⟨_, hsealed⟩
    · exact hs id sealed' hheld
  | deleted =>
    rw [Store.held_delete] at hheld
    split at hheld
    · cases hheld
    · exact hs id sealed' hheld
  | validated =>
    rw [Store.held_validate] at hheld
    exact hs id sealed' hheld
  | resealed _ _ hsealed =>
    rw [Store.held_reseal] at hheld
    split at hheld
    · obtain ⟨-, -, rfl⟩ := Option.map_eq_some_iff.mp hheld
      exact ⟨_, hsealed⟩
    · exact hs id sealed' hheld
  | _ => exact hs id sealed' hheld

/-- What is stored last is served behind a statement exactly when it does not write back what has been
replaced. -/
theorem Does.serves_iff (hcrypto : crypto.Lawful) (h : Does crypto keys s t s' answer)
    (hs : s.Serves crypto keys) : s'.Serves crypto keys ↔ Unreplaced crypto keys s us t := by
  cases h with
  | @stored id body ring iv value sealed hsealed =>
    refine iff_of_true (fun id' => ?_) trivial
    rw [Store.held_upsert]
    by_cases hid : id' = id
    · simp only [Store.upsert, if_pos hid, Option.map_some, openBox_all hcrypto hsealed]
    · simp only [Store.upsert, if_neg hid, hs id']
  | @deleted id =>
    refine iff_of_true (fun id' => ?_) trivial
    rw [Store.held_delete]
    by_cases hid : id' = id
    · simp only [Store.delete, if_pos hid, Option.map_none]
    · simp only [Store.delete, if_neg hid, hs id']
  | validated =>
    refine iff_of_true (fun id' => ?_) trivial
    rw [Store.held_validate]
    exact hs id'
  | @resealed ring ivs read n c rows sealed value hok hold hnew =>
    have hopen := openBox_all hcrypto hnew
    have hold := openBox_all hcrypto hold
    simp only [Unreplaced, hok, hold, Except.isOk, Except.toBool, true_imp_iff, Except.ok.injEq]
    have hat := hs (Keyed.key c)
    constructor
    · intro hserves latest hlatest
      have := hserves (Keyed.key c)
      rw [Store.held_reseal, if_pos rfl, Option.map_map] at this
      change _ = (s.latest (Keyed.key c)).map Except.ok at this
      rw [hlatest] at this hat
      obtain ⟨sealed₀, hheld, -⟩ := Option.map_eq_some_iff.mp hat
      rw [hheld, Option.map_some, Option.map_some] at this
      simp only [Function.comp_apply, hopen] at this
      exact Except.ok.inj (Option.some.inj this)
    · intro hlatest id'
      rw [Store.held_reseal]
      by_cases hid : id' = Keyed.key c
      · subst hid
        rw [if_pos rfl, Option.map_map]
        change _ = (s.latest (Keyed.key c)).map Except.ok
        cases hl : s.latest (Keyed.key c) with
        | none =>
          rw [hl] at hat
          rw [Option.map_eq_none_iff.mp hat]
          rfl
        | some latest =>
          rw [hl] at hat
          obtain ⟨sealed₀, hheld, -⟩ := Option.map_eq_some_iff.mp hat
          rw [hheld]
          simp only [Option.map_some, Function.comp_apply, hopen]
          rw [hlatest latest hl]
      · rw [if_neg hid]
        exact hs id'
  | refused herr =>
    refine iff_of_true hs ?_
    cases t with
    | begun call => trivial
    | resealing ring ivs read rows n =>
      cases rows with
      | nil => trivial
      | cons c rows =>
        intro hok
        rw [herr _ _ _ _ _ _ rfl] at hok
        cases hok
  | _ => exact iff_of_true hs trivial

variable (crypto keys) in
/-- What a statement tells, and what it leaves alone: a rotation says that nothing remains; a provider is
switched on by `markValidated` alone; what cannot be loaded is not there, or is sealed under a version
that the process does not have. -/
structure Tells (s : Store) (asked : Uuid × String → Except Err (KeyRing Key) → Prop) (s' : Store)
    (answer : List CredentialEvent) : Prop where
  remaining : ∀ resealed remaining, .rotated resealed remaining ∈ answer → remaining = 0
  enabled : ∀ id, s'.enabled id = true → s.enabled id = true ∨ .validated id ∈ answer
  loaded : ∀ id value enabled, .loaded id value enabled ∈ answer →
    (s.held id).map (fun sealed => openBox crypto keys sealed.1) = some (.ok value)
  notLoaded : ∀ id err, .notLoaded id err ∈ answer → ∃ ring, asked id ring ∧
    ((s.held id = none ∧ err = noCredentials id.2) ∨ ring = .error err ∨
      ∃ r sealed, ring = .ok r ∧ s.held id = some sealed ∧ r.keys sealed.2 = none ∧
        err = notInRing sealed.2)

/-- A call asks for the credentials in a process with this ring. -/
def CredentialPhase.Asks (t : CredentialPhase Key) (id : Uuid × String) (ring : Except Err (KeyRing Key)) :
    Prop := t = .begun (.loadCredentials id ring)

theorem Does.tells (h : Does crypto keys s t s' answer) : Tells crypto keys s t.Asks s' answer := by
  cases h with
  | @stored id body ring iv value sealed hsealed =>
    refine ⟨by simp, fun id' henabled => ?_, by simp, by simp⟩
    rw [Store.enabled, Store.find?_upsert] at henabled
    split at henabled
    · cases henabled
    · exact .inl henabled
  | @deleted id =>
    refine ⟨by simp, fun id' henabled => ?_, by simp, by simp⟩
    rw [Store.enabled, Store.find?_delete] at henabled
    split at henabled
    · cases henabled
    · exact .inl henabled
  | @validated id enable now =>
    refine ⟨by simp, fun id' henabled => ?_, by simp, by simp⟩
    rw [Store.enabled, Store.validate, Table.find?_update] at henabled
    split at henabled
    · rename_i hid
      exact .inr (by simp [hid])
    · exact .inl henabled
  | @loaded id ring value enabled hopen =>
    refine ⟨by simp, fun _ => .inl, fun id' value' enabled' hmem => ?_, by simp⟩
    simp only [List.mem_singleton, CredentialEvent.loaded.injEq] at hmem
    obtain ⟨rfl, rfl, -⟩ := hmem
    exact hopen
  | @notLoaded id ring err hwhy =>
    refine ⟨by simp, fun _ => .inl, by simp, fun id' err' hmem => ?_⟩
    simp only [List.mem_singleton, CredentialEvent.notLoaded.injEq] at hmem
    obtain ⟨rfl, rfl⟩ := hmem
    exact ⟨ring, rfl, hwhy⟩
  | resealed => exact ⟨by simp, fun id' => by rw [Store.enabled_reseal]; exact .inl, by simp, by simp⟩
  | rotated => exact ⟨by simp, fun _ => .inl, by simp, by simp⟩
  | refused => exact ⟨by simp, fun _ => .inl, by simp, by simp⟩
  | read => exact ⟨by simp, fun _ => .inl, by simp, by simp⟩

variable (keys) in
/-- The rows are sealed, and a call knows what it has read. -/
theorem credentialsRule (hcrypto : crypto.Lawful) :
    (credentials crypto).Rule (CredentialCall.Agrees keys) (fun _ _ _ => True) (Store.Sound crypto keys)
      (fun _ => CredentialPhase.Sound crypto keys) fun _ _ => True where
  symm _ _ := id
  start _ _ _ hagrees := ⟨hagrees, fun _ _ => trivial⟩
  goes s us t hs ht hus _ s' t' answer hnext := by
    obtain ⟨hdoes, ht'⟩ := next_goes us hcrypto hs ht hnext
    exact ⟨hdoes.sound hs, ht', hus⟩
  ends s us t hs ht hus _ s' answer hnext :=
    ⟨(next_ends us hcrypto hs ht hnext).sound hs, fun u hu => (hus u hu).1⟩

end Statements

/-! ## In every run -/

section Runs

variable {Key : Type} {crypto : BoxCrypto Key Credentials} {keys : Nat → Option Key}

/-- A move of the calls. -/
abbrev CredentialMove (Key : Type) := Move (CredentialCall Key)

/-- The calls that run, and what they have committed. -/
abbrev CredentialWorld (Key : Type) := Sessions Store (CredentialPhase Key)

/-- What a move does is what a statement does, or nothing. -/
theorem move_does (hcrypto : crypto.Lawful) {w : CredentialWorld Key} (m : CredentialMove Key)
    (h : Protocol.Holds (Store.Sound crypto keys) (fun _ => CredentialPhase.Sound crypto keys)
      (fun _ _ => True) w) :
    (((credentials crypto).machine.step w m).1.committed = w.committed ∧
      ((credentials crypto).machine.step w m).2 = [] ∧
      Protocol.Allowed (fun _ => True) (Unreplaced crypto keys) w m) ∨
    ∃ r, w.running.find? r.id = some r ∧ m = .go r.id ∧
      Does crypto keys w.committed r.state ((credentials crypto).machine.step w m).1.committed
        ((credentials crypto).machine.step w m).2 := by
  rcases Protocol.move_cases (p := credentials crypto) w m with
    ⟨r, hfind, rfl, hcommitted, hanswer⟩ | ⟨hcommitted, hanswer, hallowed⟩
  · have ht := h.session r (Table.find?_mem hfind)
    rw [hcommitted, hanswer]
    cases hnext : (credentials crypto).next w.committed (w.others r.id) r.state with
    | waits => exact absurd hnext (next_ne_waits (w.others r.id))
    | goes s' t' answer =>
      exact .inr ⟨r, hfind, rfl, (next_goes (w.others r.id) hcrypto h.committed ht hnext).1⟩
    | ends s' answer => exact .inr ⟨r, hfind, rfl, next_ends (w.others r.id) hcrypto h.committed ht hnext⟩
  · exact .inl ⟨hcommitted, hanswer, hallowed _⟩

variable (crypto keys)

/-- What every move tells, of rows that are sealed. -/
structure Told (w : CredentialWorld Key) (m : CredentialMove Key) : Prop where
  sealed : ((credentials crypto).machine.step w m).1.committed.Sound crypto keys
  tells : Tells crypto keys w.committed (fun id ring => ∃ r ∈ w.running, r.state.Asks id ring)
    ((credentials crypto).machine.step w m).1.committed ((credentials crypto).machine.step w m).2

/-- What is stored last is what is served and what is loaded. -/
structure Served (w : CredentialWorld Key) (m : CredentialMove Key) : Prop where
  rows : ((credentials crypto).machine.step w m).1.committed.Serves crypto keys
  loaded : ∀ id value enabled, .loaded id value enabled ∈ ((credentials crypto).machine.step w m).2 →
    w.committed.latest id = some value

variable {crypto keys}

theorem told (hcrypto : crypto.Lawful) {w : CredentialWorld Key} (m : CredentialMove Key)
    (h : Protocol.Holds (Store.Sound crypto keys) (fun _ => CredentialPhase.Sound crypto keys)
      (fun _ _ => True) w) : Told crypto keys w m := by
  rcases move_does hcrypto m h with ⟨hcommitted, hanswer, -⟩ | ⟨r, hfind, rfl, hdoes⟩
  · refine ⟨hcommitted ▸ h.committed, ?_⟩
    rw [hcommitted, hanswer]
    exact ⟨by simp, fun _ => .inl, by simp, by simp⟩
  · refine ⟨hdoes.sound h.committed, ?_⟩
    have htells := hdoes.tells
    refine ⟨htells.remaining, htells.enabled, htells.loaded, fun id err hmem => ?_⟩
    obtain ⟨ring, hasks, hwhy⟩ := htells.notLoaded id err hmem
    exact ⟨ring, ⟨r, Table.find?_mem hfind, hasks⟩, hwhy⟩

theorem stillServed_iff (hcrypto : crypto.Lawful) {w : CredentialWorld Key} (m : CredentialMove Key)
    (h : Protocol.Holds (Store.Sound crypto keys) (fun _ => CredentialPhase.Sound crypto keys)
      (fun _ _ => True) w) (hs : w.committed.Serves crypto keys) :
    Served crypto keys w m ↔ Protocol.Allowed (fun _ => True) (Unreplaced crypto keys) w m := by
  have hloaded : ∀ id value enabled,
      .loaded id value enabled ∈ ((credentials crypto).machine.step w m).2 →
      w.committed.latest id = some value := by
    intro id value enabled hmem
    have hopen := (told hcrypto m h).tells.loaded id value enabled hmem
    rw [hs id] at hopen
    obtain ⟨latest, hlatest, heq⟩ := Option.map_eq_some_iff.mp hopen
    rw [hlatest, Except.ok.inj heq]
  rcases move_does hcrypto m h with ⟨hcommitted, -, hallowed⟩ | ⟨r, hfind, rfl, hdoes⟩
  · exact iff_of_true ⟨hcommitted ▸ hs, hloaded⟩ hallowed
  · rw [Protocol.allowed_go hfind, ← hdoes.serves_iff (w.others r.id) hcrypto hs]
    exact ⟨fun h => h.rows, fun h => ⟨h, hloaded⟩⟩

/-- In every run of processes that agree on what the key of a version is: the rows are sealed under the
versions of their columns, so that they open wherever these are known; a rotation answers that nothing
remains; only `markValidated` switches a provider on. And a restaurant is served what it has stored last,
all along the run, exactly when no rotation writes back what has been replaced since it was read. -/
theorem latest_served_iff (hcrypto : crypto.Lawful) {s : Store} (hsound : s.Sound crypto keys)
    (hserves : s.Serves crypto keys) {moves : List (CredentialMove Key)}
    (hagrees : ∀ id call, .start id call ∈ moves → call.Agrees keys) :
    (credentials crypto).machine.Every (Told crypto keys) (Sessions.start s) moves ∧
    ((credentials crypto).machine.Every (Served crypto keys) (Sessions.start s) moves ↔
      (credentials crypto).machine.Every (Protocol.Allowed (fun _ => True) (Unreplaced crypto keys))
        (Sessions.start s) moves) := by
  have hrule := credentialsRule keys hcrypto
  have hallowed := Protocol.every_allowed (p := credentials crypto) (w := Sessions.start s) hagrees
  have hstart := Protocol.Holds.start (J := fun _ => CredentialPhase.Sound crypto keys)
    (X := fun _ _ => True) hsound
  refine ⟨hrule.every (fun w m h _ => told hcrypto m h) hstart hallowed, ?_⟩
  have hiff : (credentials crypto).machine.Every _ (Sessions.start s) moves ↔ _ := Machine.every_iff (m := (credentials crypto).machine)
    (I := fun w => Protocol.Holds (Store.Sound crypto keys) (fun _ => CredentialPhase.Sound crypto keys)
      (fun _ _ => True) w ∧ w.committed.Serves crypto keys)
    (P := fun w m => Served crypto keys w m ∧
      Protocol.Allowed (CredentialCall.Agrees keys) (fun _ _ _ => True) w m)
    (Q := fun w m => Protocol.Allowed (fun _ => True) (Unreplaced crypto keys) w m ∧
      Protocol.Allowed (CredentialCall.Agrees keys) (fun _ _ _ => True) w m)
    (fun w m h => and_congr_left fun _ => stillServed_iff hcrypto m h.1 h.2)
    (fun w m h hp => ⟨hrule.step w m h.1 hp.2, hp.1.rows⟩) ⟨hstart, hserves⟩
  rw [Machine.every_and, Machine.every_and] at hiff
  exact (and_iff_left hallowed).symm.trans (hiff.trans (and_iff_left hallowed))

end Runs

/-! ## A legible box -/

section Legible

/-- A character in four bytes, behind a one. -/
def charBytes (c : Char) : List UInt8 :=
  [1, .ofNat c.toNat, .ofNat (c.toNat / 256), .ofNat (c.toNat / 65536)]

/-- A text, with a zero behind it. -/
def textBytes (text : List Char) : List UInt8 := text.flatMap charBytes ++ [0]

def readText : List UInt8 → Option (List Char × List UInt8)
  | 0 :: rest => some ([], rest)
  | 1 :: a :: b :: c :: rest =>
    (readText rest).map fun r => (Char.ofNat (a.toNat + 256 * b.toNat + 65536 * c.toNat) :: r.1, r.2)
  | _ => none

theorem readText_textBytes (text : List Char) (rest : List UInt8) :
    readText (textBytes text ++ rest) = some (text, rest) := by
  induction text with
  | nil => rfl
  | cons c text ih =>
    have hsmall : c.toNat < 1114112 := by
      have := c.valid
      rcases this with h | ⟨-, h⟩
      · exact lt_trans h (by decide)
      · exact h
    have hchar : (UInt8.ofNat c.toNat).toNat + 256 * (UInt8.ofNat (c.toNat / 256)).toNat +
        65536 * (UInt8.ofNat (c.toNat / 65536)).toNat = c.toNat := by
      simp only [UInt8.toNat_ofNat']
      omega
    have hsplit : textBytes (c :: text) ++ rest = 1 :: .ofNat c.toNat :: .ofNat (c.toNat / 256) ::
        .ofNat (c.toNat / 65536) :: (textBytes text ++ rest) := rfl
    rw [hsplit, readText, ih, Option.map_some, hchar, Char.ofNat_toNat]

/-- A cipher that adds its key to every byte, and a tag that is the key. -/
def legibleCipher : Sealing.Cipher UInt8 where
  encrypt key _ plaintext := (List.replicate TAG_BYTES key, plaintext.map (· + key))
  decrypt key _ tag ciphertext :=
    if tag = List.replicate TAG_BYTES key then some (ciphertext.map (· - key)) else none

def legible : BoxCrypto UInt8 Credentials where
  cipher := legibleCipher
  stringify c := [c.merchantId, c.clientId, c.secretKey, c.integratorId, c.terminalId].flatMap fun s =>
    textBytes s.toList
  parse bytes := do
    let (merchantId, bytes) ← readText bytes
    let (clientId, bytes) ← readText bytes
    let (secretKey, bytes) ← readText bytes
    let (integratorId, bytes) ← readText bytes
    let (terminalId, _) ← readText bytes
    return ⟨.ofList merchantId, .ofList clientId, .ofList secretKey, .ofList integratorId,
      .ofList terminalId⟩

theorem legible_lawful : legible.Lawful where
  cipher := {
    decrypt_iff := by
      intro key iv tag ciphertext plaintext
      simp only [legible, legibleCipher, Prod.mk.injEq, Option.ite_none_right_eq_some, Option.some.injEq]
      constructor
      · rintro ⟨rfl, rfl⟩
        simp [Function.comp_def]
      · rintro ⟨rfl, rfl⟩
        simp [Function.comp_def]
    tag_length := fun _ _ _ => List.length_replicate
    ciphertext_length := fun _ _ _ => List.length_map _ }
  parse_stringify c := by
    have hlast := readText_textBytes c.terminalId.toList []
    rw [List.append_nil] at hlast
    simp [legible, readText_textBytes, hlast]
  stringify_ne_nil c := by
    simp [legible, textBytes]

/-- The key of the first years. -/
def oldRing : KeyRing UInt8 where
  keys version := if version = 1 then some 7 else none
  active := 1
  activeKey := 7
  active_mem := rfl

/-- A new key is active, and the old one still in the ring. -/
def newRing : KeyRing UInt8 where
  keys version := if version = 1 then some 7 else if version = 2 then some 9 else none
  active := 2
  activeKey := 9
  active_mem := rfl

theorem oldRing_within : Within oldRing.keys newRing.keys := by
  intro version key hkey
  simp only [oldRing] at hkey
  split at hkey
  · rename_i hversion
    rw [hversion]
    exact hkey
  · cases hkey

def zeroIv : Iv := ⟨List.replicate IV_BYTES 0, rfl⟩

/-- The body of a request with this secret. -/
def bodyWith (secretKey : String) : Json :=
  .obj [("merchantId", .str "m"), ("clientId", .str "c"), ("secretKey", .str secretKey),
    ("integratorId", .str "i"), ("terminalId", .str "t")]

def credentialsWith (secretKey : String) : Credentials := ⟨"m", "c", secretKey, "i", "t"⟩

/-- A process with the old ring stores credentials, one with the new ring rotates and loads them. -/
def handover : List (CredentialMove UInt8) :=
  [.start 1 (.putCredentials (1, "MERCANTIL") (bodyWith "a") (.ok oldRing) zeroIv), .go 1,
   .start 2 (.rotate 100 (.ok newRing) .stored fun _ => zeroIv), .go 2, .go 2, .go 2,
   .start 3 (.loadCredentials (1, "MERCANTIL") (.ok newRing)), .go 3]

theorem handover_agrees : ∀ id call, .start id call ∈ handover → call.Agrees newRing.keys := by
  intro id call hmem ring hring
  simp only [handover, List.mem_cons, Move.start.injEq, reduceCtorEq, List.not_mem_nil, or_false,
    false_or] at hmem
  rcases hmem with ⟨-, rfl⟩ | ⟨-, rfl⟩ | ⟨-, rfl⟩ <;>
    simp only [CredentialCall.ring, Except.toOption, Option.mem_some_iff] at hring <;> subst hring
  · exact oldRing_within
  · exact fun _ _ h => h
  · exact fun _ _ h => h

theorem empty_sound (crypto : BoxCrypto UInt8 Credentials) (keys : Nat → Option UInt8) :
    Store.empty.Sound crypto keys := nofun

theorem empty_serves (crypto : BoxCrypto UInt8 Credentials) (keys : Nat → Option UInt8) :
    Store.empty.Serves crypto keys := fun _ => rfl

theorem handover_served :
    .loaded (1, "MERCANTIL") (credentialsWith "a") false ∈
      (credentials legible).machine.outputs (Sessions.start Store.empty) handover ∧
    (credentials legible).machine.Every (Served legible newRing.keys) (Sessions.start Store.empty)
      handover :=
  ⟨by decide +kernel, (latest_served_iff legible_lawful (empty_sound _ _) (empty_serves _ _)
    handover_agrees).2.mpr (by decide +kernel)⟩

/-- Credentials that are replaced between the read and the write of a rotation come back. -/
example :
    .loaded (1, "MERCANTIL") (credentialsWith "a") false ∈
      (credentials legible).machine.outputs (Sessions.start Store.empty)
        [.start 1 (.putCredentials (1, "MERCANTIL") (bodyWith "a") (.ok oldRing) zeroIv), .go 1,
         .start 2 (.rotate 100 (.ok newRing) .stored fun _ => zeroIv), .go 2,
         .start 1 (.putCredentials (1, "MERCANTIL") (bodyWith "b") (.ok newRing) zeroIv), .go 1,
         .go 2, .go 2,
         .start 3 (.loadCredentials (1, "MERCANTIL") (.ok newRing)), .go 3] := by
  decide +kernel

end Legible

end Splite.ProviderConfigs
