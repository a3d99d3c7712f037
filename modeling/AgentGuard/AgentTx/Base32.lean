import AgentGuard.AgentTx.StrKey

/-!
# AgentTx/Base32 — base 32 at every length

Byte lists of any length, not only the 35 bytes of a key: the last symbol is padded with zeros, and
the decoder drops the padding because it never makes a byte.  Either loop starts a round with less
held than it gives out at once, so nothing is shifted out of the `u32` and no conversion is given a
number it cannot take.
-/

namespace AgentGuard.AgentTx

open Machinery

/-! ## What the loops hold -/

/-- The rounds of the loop of `base32_encode`: what is held, and the byte that comes in. -/
def base32EncodeRounds (b : BitBuffer) : List UInt8 → List (BitBuffer × ℕ)
  | [] => []
  | x :: rest => (b, x.toNat) :: base32EncodeRounds (b.feed 32 8 5 x.toNat).2 rest

/-- The rounds of the loop of `base32_decode`: what is held, and the position that comes in. -/
def base32DecodeRounds (b : BitBuffer) : List UInt8 → List (BitBuffer × ℕ)
  | [] => []
  | c :: rest =>
    if c = 61 then []
    else
      match b32.findIdx? fun a => a = c with
      | none => []
      | some v => (b, v) :: base32DecodeRounds (b.feed 32 5 8 v).2 rest

theorem lt_of_findIdx? {c : UInt8} {v : ℕ} (h : (b32.findIdx? fun a => a = c) = some v) :
    v < 2 ^ 5 := (List.findIdx?_eq_some_iff_findIdx_eq.mp h).1

theorem short_of_mem_encodeRounds {b : BitBuffer} (hb : b.Short 5) (data : List UInt8) :
    ∀ r ∈ base32EncodeRounds b data, r.1.Short 5 ∧ r.2 < 2 ^ 8 := by
  induction data generalizing b with
  | nil => exact fun _ hr => absurd hr List.not_mem_nil
  | cons x rest ih =>
    exact List.forall_mem_cons.mpr ⟨⟨hb, x.toNat_lt⟩, ih (encode_feed hb x).short⟩

theorem short_of_mem_decodeRounds {b : BitBuffer} (hb : b.Short 8) (bytes : List UInt8) :
    ∀ r ∈ base32DecodeRounds b bytes, r.1.Short 8 ∧ r.2 < 2 ^ 5 := by
  induction bytes generalizing b with
  | nil => exact fun _ hr => absurd hr List.not_mem_nil
  | cons c rest ih =>
    rw [base32DecodeRounds]
    split_ifs with hpad
    · exact fun _ hr => absurd hr List.not_mem_nil
    cases hv : b32.findIdx? fun a => a = c with
    | none => exact fun _ hr => absurd hr List.not_mem_nil
    | some v =>
      have hlt := lt_of_findIdx? hv
      exact List.forall_mem_cons.mpr ⟨⟨hb, hlt⟩, ih (decode_feed hb hlt).short⟩

/-- **Less than a symbol held and a symbol in** is less than twelve bits, and all of them are kept:
the shift in the `u32` is the exact shift. -/
theorem load_twelve_bits {inWidth outWidth : ℕ} (hwidths : inWidth + outWidth = 13) {b : BitBuffer}
    (hb : b.Short outWidth) {x : ℕ} (hx : x < 2 ^ inWidth) :
    b.load 32 inWidth x < 2 ^ 12 ∧ b.load 32 inWidth x = b.acc * 2 ^ inWidth + x := by
  have hword : inWidth + outWidth ≤ 32 := by omega
  have hload := hb.load_eq hword hx
  refine ⟨?_, hload⟩
  rw [hload]
  have hpow : 2 ^ (b.bits + inWidth) ≤ 2 ^ 12 :=
    Nat.pow_le_pow_right Nat.two_pos (by have := hb.bits; omega)
  exact (hb.load_lt hx).trans_le hpow

/-! ## What can fail -/

/-- `char::from(B32[v])`, which traps on an index outside the alphabet. -/
def b32Char? (v : ℕ) : Option Char := (b32[v]?).map fun a => Char.ofNat a.toNat

/-- The loop of `base32_encode` with what traps in it: the alphabet index, and `5 - bits`. -/
def base32EncodeFrom? (b : BitBuffer) : List UInt8 → Option (List Char)
  | [] =>
    if 0 < b.bits then
      if b.bits ≤ 5 then
        (b32Char? ((b.acc <<< (5 - b.bits)) % 2 ^ 32 &&& 0x1f)).map fun c => [c]
      else none
    else some []
  | x :: rest => do
    let (groups, b) := b.feed 32 8 5 x.toNat
    let out ← groups.mapM b32Char?
    let rest ← base32EncodeFrom? b rest
    return out ++ rest

theorem b32Char?_eq {v : ℕ} (hv : v < 2 ^ 5) : b32Char? v = some (b32Char v) := by
  have hlt : v < b32.length := hv
  rw [b32Char?, b32Char, List.getElem?_eq_getElem hlt]
  rfl

theorem mapM_b32Char? {vs : List ℕ} (h : ∀ v ∈ vs, v < 2 ^ 5) :
    vs.mapM b32Char? = some (vs.map b32Char) := by
  induction vs with
  | nil => rfl
  | cons v vs ih =>
    obtain ⟨hv, hvs⟩ := List.forall_mem_cons.mp h
    rw [List.mapM_cons, b32Char?_eq hv, ih hvs]
    rfl

/-- The mask of the last group cuts nothing off what is held. -/
theorem last_group {b : BitBuffer} (hb : b.Short 5) :
    (b.acc <<< (5 - b.bits)) % 2 ^ 32 &&& 0x1f = b.acc * 2 ^ (5 - b.bits) ∧
      b.acc * 2 ^ (5 - b.bits) < 2 ^ 5 := by
  have hlt := hb.pad_lt
  refine ⟨?_, hlt⟩
  have hword : (b.acc <<< (5 - b.bits)) % 2 ^ 32 = b.acc * 2 ^ (5 - b.bits) := by
    rw [Nat.shiftLeft_eq, Nat.mod_eq_of_lt (by omega)]
  show _ &&& 2 ^ 5 - 1 = _
  rw [hword, Nat.and_two_pow_sub_one_eq_mod, Nat.mod_eq_of_lt hlt]

/-- **Encoding never traps.** -/
theorem base32EncodeFrom?_eq (data : List UInt8) :
    ∀ {b : BitBuffer}, b.Short 5 → base32EncodeFrom? b data = some (base32EncodeFrom b data) := by
  induction data with
  | nil =>
    intro b hb
    obtain ⟨hgroup, hlt⟩ := last_group hb
    rw [base32EncodeFrom?, base32EncodeFrom, hgroup, if_pos hb.bits.le, b32Char?_eq hlt]
    split_ifs <;> rfl
  | cons x rest ih =>
    intro b hb
    have hfeed := encode_feed hb x
    rw [base32EncodeFrom?, base32EncodeFrom]
    generalize b.feed 32 8 5 x.toNat = r at hfeed ⊢
    obtain ⟨out, b'⟩ := r
    dsimp only
    rw [mapM_b32Char? hfeed.symbols, ih hfeed.short]
    rfl

/-- **Decoding fails on a byte outside the alphabet and on nothing else**: no conversion fails on
what gets to it. -/
theorem base32DecodeFrom_eq_none_iff (bytes : List UInt8) :
    ∀ {b : BitBuffer}, b.Short 8 →
      (base32DecodeFrom b bytes = none ↔ ∃ c ∈ bytes.takeWhile (· ≠ 61), c ∉ b32) := by
  induction bytes with
  | nil => exact fun _ => by simp [base32DecodeFrom]
  | cons c rest ih =>
    intro b hb
    rw [base32DecodeFrom]
    by_cases hpad : c = 61
    · simp [hpad]
    rw [if_neg hpad, List.takeWhile_cons_of_pos (by simpa using hpad)]
    cases hv : b32.findIdx? fun a => a = c with
    | none =>
      have hout : c ∉ b32 := fun hmem => by
        have := List.findIdx?_eq_none_iff.mp hv c hmem
        simp at this
      exact ⟨fun _ => ⟨c, List.mem_cons_self, hout⟩, fun _ => rfl⟩
    | some v =>
      have hlt := lt_of_findIdx? hv
      have hfeed := decode_feed hb hlt
      have hin : c ∈ b32 := by
        obtain ⟨hlen, hfind⟩ := List.findIdx?_eq_some_iff_getElem.mp hv
        have heq : b32[v] = c := by simpa using hfind.1
        exact heq ▸ List.getElem_mem hlen
      rw [Option.bind_eq_bind, Option.bind_some]
      generalize b.feed 32 5 8 v = r at hfeed ⊢
      obtain ⟨out, b'⟩ := r
      dsimp only
      rw [mapM_u8TryFrom hfeed.symbols, Option.bind_eq_bind, Option.bind_some]
      simp only [List.mem_cons, exists_eq_or_imp, hin, not_true_eq_false, false_or,
        ← ih hfeed.short]
      cases base32DecodeFrom b' rest <;> simp

/-! ## The round trip -/

/-- **Any bytes are symbols, the last one padded**, which regroup into the bytes. -/
theorem base32Encode_padded (data : List UInt8) :
    ∃ vs : List ℕ, base32Encode data = String.ofList (vs.map b32Char) ∧
      (∃ pad < 5, 5 * vs.length = 8 * data.length + pad) ∧ (∀ v ∈ vs, v < 2 ^ 5) ∧
      (regroup 32 5 8 ⟨0, 0⟩ vs).1 = data.map UInt8.toNat := by
  have hword : 8 + 5 ≤ 32 := by decide
  obtain ⟨vs, hvs, hlen, hlt, hback⟩ :=
    regroup_regroup_padded (by decide) (by decide) hword (toNat_lt_two_pow data)
  rw [List.length_map] at hlen
  refine ⟨vs, ?_, hlen, hlt, hback⟩
  have hshort := (regroup_spec (by decide) hword (data.map UInt8.toNat)
    (BitBuffer.short_empty (by decide)) (toNat_lt_two_pow data)).short
  rw [base32Encode, base32EncodeFrom_eq, ← hvs, List.map_append]
  generalize regroup 32 8 5 ⟨0, 0⟩ (data.map UInt8.toNat) = r at hshort ⊢
  obtain ⟨out, b⟩ := r
  dsimp only at hshort ⊢
  rw [base32EncodeFrom, BitBuffer.flush, (last_group hshort).1]
  split_ifs <;> rfl

/-- **Base 32 loses nothing, at any length.**  Decoding undoes encoding, and the encoding is
`⌈8n/5⌉` characters of the alphabet.  In every round of either loop the accumulator holds less than
twelve bits before anything is shifted out, none of them lost to the `u32`, and a position is below
`32`; so encoding never indexes outside the alphabet, and decoding fails only on a byte outside
it. -/
theorem base32_lossless :
    (∀ data : List UInt8,
      base32Decode (base32Encode data) = some data ∧
        (base32Encode data).length = (8 * data.length + 4) / 5 ∧
        ∀ c ∈ (base32Encode data).toList, ∃ a ∈ b32, c = Char.ofNat a.toNat) ∧
    (∀ data : List UInt8, ∀ r ∈ base32EncodeRounds ⟨0, 0⟩ data,
      r.1.load 32 8 r.2 < 2 ^ 12 ∧ r.1.load 32 8 r.2 = r.1.acc * 2 ^ 8 + r.2) ∧
    (∀ input : String, ∀ r ∈ base32DecodeRounds ⟨0, 0⟩ (utf8Bytes input),
      r.1.load 32 5 r.2 < 2 ^ 12 ∧ r.1.load 32 5 r.2 = r.1.acc * 2 ^ 5 + r.2 ∧ r.2 < 2 ^ 5) ∧
    (∀ data : List UInt8,
      (base32EncodeFrom? ⟨0, 0⟩ data).map String.ofList = some (base32Encode data)) ∧
    ∀ input : String,
      base32Decode input = none ↔ ∃ c ∈ (utf8Bytes input).takeWhile (· ≠ 61), c ∉ b32 := by
  have hsymbol : (⟨0, 0⟩ : BitBuffer).Short 5 := BitBuffer.short_empty (by decide)
  have hbyte : (⟨0, 0⟩ : BitBuffer).Short 8 := BitBuffer.short_empty (by decide)
  refine ⟨fun data => ?_, fun data r hr => ?_, fun input r hr => ?_, fun data => ?_,
    fun input => ?_⟩
  · obtain ⟨vs, henc, ⟨pad, hpad, hlen⟩, hvs, hback⟩ := base32Encode_padded data
    rw [henc]
    refine ⟨?_, ?_, fun c hc => ?_⟩
    · rw [base32Decode, utf8Bytes_symbols hvs, base32DecodeFrom_symbols vs hbyte hvs, hback,
        map_ofNat_toNat]
    · rw [String.length_ofList, List.length_map]
      omega
    · rw [String.toList_ofList] at hc
      obtain ⟨v, hv, rfl⟩ := List.mem_map.mp hc
      have hlt : v < b32.length := hvs v hv
      refine ⟨b32[v], List.getElem_mem hlt, ?_⟩
      rw [b32Char, List.getElem?_eq_getElem hlt]
      rfl
  · obtain ⟨hshort, hlt⟩ := short_of_mem_encodeRounds hsymbol data r hr
    exact load_twelve_bits rfl hshort hlt
  · obtain ⟨hshort, hlt⟩ := short_of_mem_decodeRounds hbyte _ r hr
    obtain ⟨hacc, hload⟩ := load_twelve_bits rfl hshort hlt
    exact ⟨hacc, hload, hlt⟩
  · rw [base32EncodeFrom?_eq data hsymbol]
    rfl
  · exact base32DecodeFrom_eq_none_iff (utf8Bytes input) hbyte

end AgentGuard.AgentTx
