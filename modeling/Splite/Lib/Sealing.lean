import Mathlib.Tactic

/-!
# Sealed blobs with the version of their key

An authenticated cipher over byte strings, and blobs `version ‖ iv ‖ tag ‖ ciphertext` that say by which
key of a ring they are opened.

* `Blob.unpack_pack`, `Blob.pack_unpack`: the layout is a bijection between blobs and the byte strings
  that are long enough.
* `Cipher.Lawful`: what is opened is what was sealed, and nothing else is opened.
* `opened_iff`: the byte strings that a ring opens are the ones that one of its keys seals.
-/

namespace Sealing

/-- An authenticated cipher; `encrypt` gives the tag and the ciphertext. -/
structure Cipher (Key : Type) where
  encrypt : Key → (iv plaintext : List UInt8) → List UInt8 × List UInt8
  decrypt : Key → (iv tag ciphertext : List UInt8) → Option (List UInt8)

/-- Only what was sealed is opened, as what it was; the stream has the length of the text. -/
structure Cipher.Lawful {Key : Type} (c : Cipher Key) (tagBytes : Nat) : Prop where
  decrypt_iff : ∀ key iv tag ciphertext plaintext,
    c.decrypt key iv tag ciphertext = some plaintext ↔ c.encrypt key iv plaintext = (tag, ciphertext)
  tag_length : ∀ key iv plaintext, (c.encrypt key iv plaintext).1.length = tagBytes
  ciphertext_length : ∀ key iv plaintext, (c.encrypt key iv plaintext).2.length = plaintext.length

structure Blob where
  version : UInt8
  iv : List UInt8
  tag : List UInt8
  ciphertext : List UInt8
  deriving DecidableEq, Repr

namespace Blob

/-- `version ‖ iv ‖ tag ‖ ciphertext`. -/
def pack (b : Blob) : List UInt8 := b.version :: (b.iv ++ b.tag ++ b.ciphertext)

/-- The parts have their lengths, and something is sealed. -/
structure Sized (ivBytes tagBytes : Nat) (b : Blob) : Prop where
  iv : b.iv.length = ivBytes
  tag : b.tag.length = tagBytes
  ciphertext : b.ciphertext ≠ []

/-- The parts of a byte string; `none` when it is too short. -/
def unpack (ivBytes tagBytes : Nat) : List UInt8 → Option Blob
  | [] => none
  | version :: rest =>
    if rest.length < ivBytes + tagBytes + 1 then none
    else
      some ⟨version, rest.take ivBytes, (rest.drop ivBytes).take tagBytes,
        rest.drop (ivBytes + tagBytes)⟩

variable {ivBytes tagBytes : Nat} {b : Blob}

theorem Sized.length (h : b.Sized ivBytes tagBytes) :
    ivBytes + tagBytes < (b.iv ++ b.tag ++ b.ciphertext).length := by
  have := List.length_pos_iff.mpr h.ciphertext
  simp only [List.length_append, h.iv, h.tag]
  omega

theorem unpack_pack (h : b.Sized ivBytes tagBytes) : unpack ivBytes tagBytes b.pack = some b := by
  have hlen := h.length
  simp only [pack, unpack]
  rw [if_neg (by omega)]
  have hiv : (b.iv ++ b.tag ++ b.ciphertext).take ivBytes = b.iv := by
    rw [List.append_assoc, ← h.iv, List.take_left]
  have htag : ((b.iv ++ b.tag ++ b.ciphertext).drop ivBytes).take tagBytes = b.tag := by
    rw [List.append_assoc, ← h.iv, List.drop_left, ← h.tag, List.take_left]
  have hrest : (b.iv ++ b.tag ++ b.ciphertext).drop (ivBytes + tagBytes) = b.ciphertext := by
    rw [← h.iv, ← h.tag, ← List.length_append, List.drop_left]
  rw [hiv, htag, hrest]

theorem pack_unpack {bytes : List UInt8} (h : unpack ivBytes tagBytes bytes = some b) :
    b.pack = bytes ∧ b.Sized ivBytes tagBytes := by
  cases bytes with
  | nil => cases h
  | cons version rest =>
    simp only [unpack] at h
    split at h
    · cases h
    · rename_i hlen
      cases h
      refine ⟨?_, ?_, ?_, ?_⟩
      · simp only [pack]
        rw [List.append_assoc, ← List.drop_drop, List.take_append_drop, List.take_append_drop]
      · simp only [List.length_take]
        omega
      · simp only [List.length_take, List.length_drop]
        omega
      · intro hnil
        have := congrArg List.length hnil
        simp only [List.length_drop, List.length_nil] at this
        omega

end Blob

section Ring

variable {Key : Type} (c : Cipher Key)

/-- The blob that a key of this version seals a text in. -/
def sealed (version : UInt8) (key : Key) (iv plaintext : List UInt8) : Blob :=
  ⟨version, iv, (c.encrypt key iv plaintext).1, (c.encrypt key iv plaintext).2⟩

/-- The text of a blob, by the key of its version. -/
def opened (keys : Nat → Option Key) (b : Blob) : Option (List UInt8) :=
  (keys b.version.toNat).bind fun key => c.decrypt key b.iv b.tag b.ciphertext

variable {c} {tagBytes ivBytes : Nat} {version : UInt8} {key : Key} {iv plaintext : List UInt8}

theorem sealed_sized (version : UInt8) (key : Key) (h : c.Lawful tagBytes) (hiv : iv.length = ivBytes) (hp : plaintext ≠ []) :
    (sealed c version key iv plaintext).Sized ivBytes tagBytes where
  iv := hiv
  tag := h.tag_length key iv plaintext
  ciphertext := by
    intro hnil
    have hlen := h.ciphertext_length key iv plaintext
    rw [show (c.encrypt key iv plaintext).2 = [] from hnil] at hlen
    exact hp (List.length_eq_zero_iff.mp hlen.symm)

/-- A ring opens the blobs that one of its keys seals, and no others. -/
theorem opened_iff (h : c.Lawful tagBytes) {keys : Nat → Option Key} {b : Blob} :
    opened c keys b = some plaintext ↔
      ∃ key, keys b.version.toNat = some key ∧ b = sealed c b.version key b.iv plaintext := by
  simp only [opened, Option.bind_eq_some_iff]
  refine exists_congr fun key => and_congr_right fun _ => ?_
  rw [h.decrypt_iff]
  constructor
  · intro henc
    simp only [sealed, henc]
  · intro hb
    rw [hb]
    rfl

end Ring

end Sealing
