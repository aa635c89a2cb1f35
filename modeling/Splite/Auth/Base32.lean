import Mathlib.Data.Bool.AllAny
import Splite.Basic
import Splite.Lib.Bits
import Splite.Lib.Except
import Splite.Mercantil.Matcher

/-!
# Base 32 (`services/totp.js`)

Both loops shift an accumulator of 32 bits and never mask it, so its upper bits are those of symbols that
are long gone. Only the lowest ones, those of the count `bits`, are still to be written.

* `Encoder.Holds.encodeByte`, `Decoder.Holds.decodeChar`: what was written and the lowest bits together are
  the bits that were read.
* `base32Decode_base32Encode`: decoding undoes encoding.
-/

namespace Splite.Totp

open Bits

def BASE32_ALPHABET : List Char := "ABCDEFGHIJKLMNOPQRSTUVWXYZ234567".toList

/-- `value << count`: the count is taken modulo 32. -/
def shiftLeft (value : BitVec 32) (count : Nat) : BitVec 32 := value <<< (count % 32)

/-- `value >>> count`. -/
def shiftRight (value : BitVec 32) (count : Nat) : BitVec 32 := value >>> (count % 32)

/-- `BASE32_ALPHABET[index]`, of an index below 32. -/
def symbol (index : BitVec 32) : Char := BASE32_ALPHABET.getD index.toNat ' '

/-! ## Encoding -/

/-- `while (bits >= 5)`: the bits that are left, and the output. -/
def drain (value : BitVec 32) : Nat → List Char → Nat × List Char
  | bits + 5, output => drain value bits (output ++ [symbol (shiftRight value bits &&& 31)])
  | bits, output => (bits, output)

structure Encoder where
  bits : Nat
  value : BitVec 32
  output : List Char

def encodeByte (e : Encoder) (byte : UInt8) : Encoder :=
  let value := shiftLeft e.value 8 ||| BitVec.ofNat 32 byte.toNat
  let (bits, output) := drain value (e.bits + 8) e.output
  ⟨bits, value, output⟩

/-- `base32Encode(buffer)`. -/
def base32Encode (buffer : List UInt8) : String :=
  let e := buffer.foldl encodeByte ⟨0, 0, []⟩
  String.ofList
    (if e.bits > 0 then e.output ++ [symbol (shiftLeft e.value (5 - e.bits) &&& 31)] else e.output)

/-! ## Decoding -/

/-- `toUpperCase()` of one character, as far as the alphabet tells: the characters beyond ASCII that
become letters of ASCII do, and the others stay beyond it. -/
def upperCase (c : Char) : List Char :=
  match c with
  | 'ß' => ['S', 'S']
  | 'ı' => ['I']
  | 'ſ' => ['S']
  | 'ﬀ' => ['F', 'F']
  | 'ﬁ' => ['F', 'I']
  | 'ﬂ' => ['F', 'L']
  | 'ﬃ' => ['F', 'F', 'I']
  | 'ﬄ' => ['F', 'F', 'L']
  | 'ﬅ' => ['S', 'T']
  | 'ﬆ' => ['S', 'T']
  | c => [c.toUpper]

/-- The input in upper case, without the padding at its end and without blanks. -/
def clean (input : String) : List Char :=
  ((input.toList.flatMap upperCase).rdropWhile (· = '=')).filter fun c => !Mercantil.isSpace c

structure Decoder where
  bits : Nat
  value : BitVec 32
  bytes : List UInt8

def decodeChar (d : Decoder) (char : Char) : Except Err Decoder :=
  match BASE32_ALPHABET.idxOf? char with
  | none => .error (.error "Invalid base32 character")
  | some index =>
    let value := shiftLeft d.value 5 ||| BitVec.ofNat 32 index
    let bits := d.bits + 5
    if bits ≥ 8 then
      .ok ⟨bits - 8, value, d.bytes ++ [UInt8.ofNat (shiftRight value (bits - 8) &&& 255).toNat]⟩
    else .ok ⟨bits, value, d.bytes⟩

/-- `base32Decode(input)`. -/
def base32Decode (input : String) : Except Err (List UInt8) := do
  let d ← (clean input).foldlM decodeChar ⟨0, 0, []⟩
  return d.bytes

/-! ## The alphabet -/

/-- The five bits that a letter stands for. -/
def quintet (c : Char) : List Bool := lowest (BASE32_ALPHABET.idxOf c) 5

/-- The bits of a byte. -/
def octet (byte : UInt8) : List Bool := lowest byte.toNat 8

theorem octet_injective : Function.Injective octet := fun a b h =>
  UInt8.toNat_inj.mp (lowest_inj a.toNat_lt b.toNat_lt h)

/-- An index below 32 has a letter, which is found at that index and which no cleaning changes. -/
theorem letter_of_index : ∀ i : Fin 32,
    BASE32_ALPHABET.idxOf (BASE32_ALPHABET.getD i ' ') = i ∧
      BASE32_ALPHABET.getD i ' ' ∈ BASE32_ALPHABET := by
  decide +kernel

theorem clean_letter : ∀ c ∈ BASE32_ALPHABET,
    upperCase c = [c] ∧ c ≠ '=' ∧ Mercantil.isSpace c = false ∧
      BASE32_ALPHABET.idxOf? c = some (BASE32_ALPHABET.idxOf c) ∧ BASE32_ALPHABET.idxOf c < 32 :=
  List.all_iff_forall_prop.mp (by decide +kernel)

theorem symbol_mem {index : BitVec 32} (h : index.toNat < 32) : symbol index ∈ BASE32_ALPHABET :=
  (letter_of_index ⟨index.toNat, h⟩).2

theorem quintet_symbol {index : BitVec 32} (h : index.toNat < 32) :
    quintet (symbol index) = lowest index.toNat 5 := by
  have hidx : BASE32_ALPHABET.idxOf (symbol index) = index.toNat := (letter_of_index ⟨index.toNat, h⟩).1
  rw [quintet, hidx]

/-- The letter of the five bits above the lowest `k`. -/
theorem quintet_shiftRight {value : BitVec 32} {k : Nat} (hk : k < 32) :
    quintet (symbol (shiftRight value k &&& 31)) = lowest (value.toNat >>> k) 5 := by
  have hshift : shiftRight value k = value >>> k := by rw [shiftRight, Nat.mod_eq_of_lt hk]
  have hmask := mask_lt (v := value >>> k) (m := 5) (by decide)
  have hpull := lowest_pull (v := value) (k := k) (m := 5) (by decide)
  rw [hshift, ← hpull]
  exact quintet_symbol hmask

/-! ## What is written -/

/-- `sent` has been read: what is written of it and the lowest bits of the accumulator. -/
structure Encoder.Holds (e : Encoder) (sent : List Bool) : Prop where
  pending : e.bits < 5
  letters : ∀ c ∈ e.output, c ∈ BASE32_ALPHABET
  sent_eq : e.output.flatMap quintet ++ lowest e.value.toNat e.bits = sent

/-- The inner loop writes the highest of the pending bits, five at a time. -/
theorem drain_spec (value : BitVec 32) {k : Nat} {output : List Char} (hk : k < 32)
    (hletters : ∀ c ∈ output, c ∈ BASE32_ALPHABET) :
    Encoder.Holds ⟨(drain value k output).1, value, (drain value k output).2⟩
      (output.flatMap quintet ++ lowest value.toNat k) := by
  induction k, output using drain.induct value with
  | case1 k output ih =>
    have hbelow : k < 32 := by omega
    have hmem : symbol (shiftRight value k &&& 31) ∈ BASE32_ALPHABET :=
      symbol_mem (mask_lt (m := 5) (by decide))
    obtain ⟨hpending, hwritten, hsent⟩ := ih hbelow fun c hc => by
      rcases List.mem_append.mp hc with hc | hc
      · exact hletters c hc
      · rw [List.mem_singleton.mp hc]
        exact hmem
    rw [drain]
    refine ⟨hpending, hwritten, hsent.trans ?_⟩
    rw [List.flatMap_append, List.flatMap_singleton, quintet_shiftRight hbelow, List.append_assoc,
      show k.succ.succ.succ.succ.succ = 5 + k by omega, lowest_add]
  | case2 k output hfew =>
    have hpending : k < 5 := by
      by_contra hmany
      exact hfew (k - 5) (by omega)
    have hdrain : drain value k output = (k, output) := by
      interval_cases k <;> rfl
    rw [hdrain]
    exact ⟨hpending, hletters, rfl⟩

theorem Encoder.Holds.encodeByte {e : Encoder} {sent : List Bool} (h : e.Holds sent) (byte : UInt8) :
    (encodeByte e byte).Holds (sent ++ octet byte) := by
  obtain ⟨hpending, hletters, rfl⟩ := h
  have hspec := drain_spec (shiftLeft e.value 8 ||| BitVec.ofNat 32 byte.toNat) (k := e.bits + 8)
    (by omega) hletters
  have hpush := lowest_push (v := e.value) (k := e.bits) (m := 8) (by omega) byte.toNat_lt
  have hshift : shiftLeft e.value 8 = e.value <<< 8 := rfl
  rw [hshift, hpush, ← List.append_assoc] at hspec
  exact hspec

theorem Encoder.Holds.foldl : ∀ {buffer : List UInt8} {e : Encoder} {sent : List Bool}, e.Holds sent →
    (buffer.foldl Totp.encodeByte e).Holds (sent ++ buffer.flatMap octet)
  | [], _, _, h => by simpa using h
  | byte :: buffer, _, _, h => by
    rw [List.foldl_cons, List.flatMap_cons, ← List.append_assoc]
    exact (h.encodeByte byte).foldl

/-- What is encoded spells the bits of the buffer, with fewer than five zeros behind. -/
theorem base32Encode_spells (buffer : List UInt8) : ∃ letters, ∃ k < 5,
    base32Encode buffer = String.ofList letters ∧ (∀ c ∈ letters, c ∈ BASE32_ALPHABET) ∧
      letters.flatMap quintet = buffer.flatMap octet ++ List.replicate k false := by
  have hstart : Encoder.Holds ⟨0, 0, []⟩ [] := ⟨by decide, by simp, rfl⟩
  obtain ⟨hpending, hletters, hsent⟩ :
      (buffer.foldl encodeByte ⟨0, 0, []⟩).Holds ([] ++ buffer.flatMap octet) := hstart.foldl
  rw [List.nil_append] at hsent
  generalize hfold : buffer.foldl encodeByte ⟨0, 0, []⟩ = e at hpending hletters hsent
  by_cases hbits : e.bits > 0
  · -- The last letter has the bits that are left above as many zeros as it takes.
    have hshift : shiftLeft e.value (5 - e.bits) = e.value <<< (5 - e.bits) := by
      rw [shiftLeft, Nat.mod_eq_of_lt (by omega)]
    have hpush := lowest_push (v := e.value) (k := e.bits) (m := 5 - e.bits) (s := 0) (by omega)
      (Nat.pow_pos (by decide))
    have hpull := lowest_pull (v := e.value <<< (5 - e.bits)) (k := 0) (m := 5) (by decide)
    have hmask := mask_lt (v := e.value <<< (5 - e.bits)) (m := 5) (by decide)
    have hlast : quintet (symbol (shiftLeft e.value (5 - e.bits) &&& 31)) =
        lowest e.value.toNat e.bits ++ List.replicate (5 - e.bits) false := by
      rw [hshift, ← lowest_zero, ← hpush, show e.bits + (5 - e.bits) = 5 by omega]
      refine (quintet_symbol hmask).trans ?_
      simpa using hpull
    refine ⟨e.output ++ [symbol (shiftLeft e.value (5 - e.bits) &&& 31)], 5 - e.bits, by omega, ?_, ?_, ?_⟩
    · simp only [base32Encode, hfold, if_pos hbits]
    · intro c hc
      rcases List.mem_append.mp hc with hc | hc
      · exact hletters c hc
      · rw [List.mem_singleton.mp hc, hshift]
        exact symbol_mem hmask
    · rw [List.flatMap_append, List.flatMap_singleton, hlast, ← List.append_assoc, hsent]
  · have hzero : e.bits = 0 := by omega
    refine ⟨e.output, 0, by decide, ?_, hletters, ?_⟩
    · simp only [base32Encode, hfold, if_neg hbits]
    · rw [hzero] at hsent
      simpa [lowest] using hsent

/-! ## What is read -/

/-- `sent` has been read: what is decoded of it and the lowest bits of the accumulator. -/
structure Decoder.Holds (d : Decoder) (sent : List Bool) : Prop where
  pending : d.bits < 8
  sent_eq : d.bytes.flatMap octet ++ lowest d.value.toNat d.bits = sent

theorem Decoder.Holds.decodeChar {d : Decoder} {sent : List Bool} (h : d.Holds sent) {c : Char}
    (hc : c ∈ BASE32_ALPHABET) : ∃ d', decodeChar d c = .ok d' ∧ d'.Holds (sent ++ quintet c) := by
  obtain ⟨hpending, rfl⟩ := h
  obtain ⟨-, -, -, hfound, hindex⟩ := clean_letter c hc
  have hpush := lowest_push (v := d.value) (k := d.bits) (m := 5) (by omega) hindex
  have hshift : shiftLeft d.value 5 = d.value <<< 5 := rfl
  unfold Totp.decodeChar
  rw [hfound]
  dsimp only
  rw [hshift]
  generalize hvalue : d.value <<< 5 ||| BitVec.ofNat 32 (BASE32_ALPHABET.idxOf c) = value at hpush
  by_cases hmany : d.bits + 5 ≥ 8
  · rw [if_pos hmany]
    refine ⟨_, rfl, by dsimp only; omega, ?_⟩
    -- The byte is the eight bits above those that stay.
    have hright : shiftRight value (d.bits + 5 - 8) = value >>> (d.bits + 5 - 8) := by
      rw [shiftRight, Nat.mod_eq_of_lt (by omega)]
    have hpull := lowest_pull (v := value) (k := d.bits + 5 - 8) (m := 8) (by decide)
    have hmask := mask_lt (v := value >>> (d.bits + 5 - 8)) (m := 8) (by decide)
    have hbyte : octet (UInt8.ofNat (shiftRight value (d.bits + 5 - 8) &&& 255).toNat) =
        lowest (value.toNat >>> (d.bits + 5 - 8)) 8 := by
      rw [octet, UInt8.toNat_ofNat_of_lt' (by rw [hright]; exact hmask), hright]
      exact hpull
    rw [List.flatMap_append, List.flatMap_singleton, hbyte, List.append_assoc, ← lowest_add,
      show 8 + (d.bits + 5 - 8) = d.bits + 5 by omega, hpush, ← List.append_assoc]
    rfl
  · rw [if_neg hmany]
    refine ⟨_, rfl, by dsimp only; omega, ?_⟩
    rw [hpush, ← List.append_assoc]
    rfl

theorem Decoder.Holds.foldlM : ∀ {letters : List Char} {d : Decoder} {sent : List Bool}, d.Holds sent →
    (∀ c ∈ letters, c ∈ BASE32_ALPHABET) →
    ∃ d', letters.foldlM Totp.decodeChar d = .ok d' ∧ d'.Holds (sent ++ letters.flatMap quintet)
  | [], d, _, h, _ => ⟨d, rfl, by simpa using h⟩
  | c :: letters, d, sent, h, hletters => by
    obtain ⟨d', hd', hholds⟩ := h.decodeChar (hletters c List.mem_cons_self)
    obtain ⟨d'', hd'', hrest⟩ := hholds.foldlM fun c' hc' => hletters c' (List.mem_cons_of_mem _ hc')
    refine ⟨d'', ?_, ?_⟩
    · rw [List.foldlM_cons, hd', Except.ok_bind, hd'']
    · rw [List.flatMap_cons, ← List.append_assoc]
      exact hrest

/-- A text in the alphabet is clean. -/
theorem clean_of_letters {letters : List Char} (h : ∀ c ∈ letters, c ∈ BASE32_ALPHABET) :
    clean (String.ofList letters) = letters := by
  have hupper : letters.flatMap upperCase = letters := by
    rw [List.flatMap_congr fun c hc => (clean_letter c (h c hc)).1]
    simp
  have hpadding : letters.rdropWhile (· = '=') = letters := by
    refine List.rdropWhile_eq_self_iff.mpr fun hne => ?_
    simpa using (clean_letter _ (h _ (List.getLast_mem hne))).2.1
  unfold clean
  rw [String.toList_ofList, hupper, hpadding]
  exact List.filter_eq_self.mpr fun c hc => by simp [(clean_letter c (h c hc)).2.2.1]

/-- Decoding undoes encoding. -/
theorem base32Decode_base32Encode (buffer : List UInt8) :
    base32Decode (base32Encode buffer) = .ok buffer := by
  obtain ⟨letters, k, hk, hencode, hletters, hspell⟩ := base32Encode_spells buffer
  have hstart : Decoder.Holds ⟨0, 0, []⟩ [] := ⟨by decide, rfl⟩
  obtain ⟨d, hd, hpending, hsent⟩ := hstart.foldlM hletters
  rw [List.nil_append, hspell] at hsent
  have hbytes : d.bytes = buffer :=
    flatMap_inj_of_rest (f := octet) (m := 8) (fun _ => length_lowest) octet_injective
      (by rwa [length_lowest]) (by rw [List.length_replicate]; omega) hsent
  rw [base32Decode, hencode, clean_of_letters hletters, hd, Except.ok_bind, hbytes]
  rfl

end Splite.Totp
