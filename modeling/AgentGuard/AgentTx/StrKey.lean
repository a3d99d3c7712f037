import AgentGuard.Contract.Types
import AgentGuard.Machinery.BitGroups

/-!
# AgentTx/StrKey — the StrKey codec of the CLI

`base32.rs` and `strkey.rs`: a key is `version || payload || crc16`, spelled in base 32.  Encoder
and decoder are the same bit accumulator with the widths swapped, so on 35 bytes — 56 characters —
each undoes the other, and the character checks of the decoder admit nothing else.
-/

namespace AgentGuard.AgentTx

open Machinery

/-! ## Base 32 and the checksum -/

/-- RFC 4648 base-32 alphabet. -/
def b32 : List UInt8 :=
  [65, 66, 67, 68, 69, 70, 71, 72, 73, 74, 75, 76, 77, 78, 79, 80, 81, 82, 83, 84, 85, 86, 87, 88,
    89, 90, 50, 51, 52, 53, 54, 55]

/-- One bit of the division by the polynomial. -/
def crc16Round (crc : UInt16) : UInt16 :=
  if crc &&& 0x8000 ≠ 0 then (crc <<< 1) ^^^ 0x1021 else crc <<< 1

/-- CRC16-XModem. -/
def crc16Xmodem (data : List UInt8) : UInt16 :=
  data.foldl (fun crc b =>
    (List.range 8).foldl (fun crc _ => crc16Round crc) (crc ^^^ (b.toUInt16 <<< (8 : UInt16)))) 0

/-- `str::bytes`: the UTF-8 encoding. -/
def utf8Bytes (s : String) : List UInt8 := s.toList.flatMap String.utf8EncodeChar

/-- `u8::try_from`. -/
def u8TryFrom (n : ℕ) : Option UInt8 := if n < 256 then some (UInt8.ofNat n) else none

/-- The loop of `base32_decode`: stop at a `=`, fail on a byte outside the alphabet. -/
def base32DecodeFrom (b : BitBuffer) : List UInt8 → Option (List UInt8)
  | [] => some []
  | c :: rest =>
    if c = 61 then some []
    else do
      let v ← b32.findIdx? fun a => a = c
      let (groups, b) := b.feed 32 5 8 v
      let out ← groups.mapM u8TryFrom
      let rest ← base32DecodeFrom b rest
      return out ++ rest

def base32Decode (input : String) : Option (List UInt8) :=
  base32DecodeFrom ⟨0, 0⟩ (utf8Bytes input)

/-- `char::from(B32[v])`; every index the code computes is below `32`. -/
def b32Char (v : ℕ) : Char := Char.ofNat ((b32[v]?).getD 0).toNat

/-- The loop of `base32_encode`, and the bits left at its end. -/
def base32EncodeFrom (b : BitBuffer) : List UInt8 → List Char
  | [] => if 0 < b.bits then [b32Char ((b.acc <<< (5 - b.bits)) % 2 ^ 32 &&& 0x1f)] else []
  | x :: rest =>
    let (groups, b) := b.feed 32 8 5 x.toNat
    groups.map b32Char ++ base32EncodeFrom b rest

def base32Encode (data : List UInt8) : String := String.ofList (base32EncodeFrom ⟨0, 0⟩ data)

/-- The checksum, low byte first. -/
def crcBytes (crc : UInt16) : List UInt8 := [(crc &&& 0xff).toUInt8, (crc >>> 8).toUInt8]

def strkeyEncode (version : UInt8) (payload : List UInt8) : String :=
  let raw := version :: payload
  base32Encode (raw ++ crcBytes (crc16Xmodem raw))

/-! ## Validation -/

def verAccount : UInt8 := (6 : UInt8) <<< (3 : UInt8)
def verContract : UInt8 := (2 : UInt8) <<< (3 : UInt8)
def verSecret : UInt8 := 0x90

def strkeyLen : ℕ := 56

def inAlphabet (c : Char) : Bool :=
  decide (c.toNat < 128) && !c.isLower && b32.contains (UInt8.ofNat c.toUpper.toNat)

/-- Which kind of key a flag expects. -/
inductive KeyKind
  | contract | account | recipient | secret
deriving DecidableEq

def KeyKind.versions : KeyKind → List UInt8
  | .contract => [verContract]
  | .account => [verAccount]
  | .recipient => [verAccount, verContract]
  | .secret => [verSecret]

/-- The leading character a version byte renders as: the top five bits. -/
def prefixFor (version : UInt8) : Char := b32Char (version >>> 3).toNat

/-- The rule quoted in every rejection. -/
def KeyKind.rule (kind : KeyKind) : String :=
  " or ".intercalate (kind.versions.map fun v => "'" ++ (prefixFor v).toString ++ "'")
    ++ " followed by 55 uppercase characters from \x60A-Z2-7\x60 "
    ++ "whose CRC16-XModem checksum matches"

/-- `{n:0width$x}`. -/
def hexPadded (width n : ℕ) : String :=
  let digits := Nat.toDigits 16 n
  String.ofList (List.replicate (width - digits.length) '0' ++ digits)

def versionName (version : UInt8) : String :=
  if version = verAccount then "an account ID (leading character 'G')"
  else if version = verContract then "a contract ID (leading character 'C')"
  else if version = verSecret then "a secret seed (leading character 'S')"
  else "an unrecognized StrKey version byte 0x" ++ hexPadded 2 version.toNat

/-- `str::char_indices`, from byte offset `i` on. -/
def charIndices : ℕ → List Char → List (ℕ × Char)
  | _, [] => []
  | i, c :: cs => (i, c) :: charIndices (i + c.utf8Size) cs

/-- The last checks of `decode_strkey`, on the decoded bytes. -/
def decodeRaw (raw : List UInt8) : Except String (UInt8 × Bytes32) :=
  let body := raw.take (raw.length - 2)
  let checksum := raw.drop (raw.length - 2)
  if body.length ≠ 33 ∨ checksum.length ≠ 2 then
    .error ("decodes to " ++ toString raw.length
      ++ " bytes, expected 35 (1 version byte + 32 key bytes + 2 checksum bytes)")
  else
    let expected := crc16Xmodem body
    let found := (((checksum[1]?).getD 0).toUInt16 <<< (8 : UInt16))
      ||| ((checksum[0]?).getD 0).toUInt16
    if expected ≠ found then
      .error ("its CRC16-XModem checksum does not match (computed 0x"
        ++ hexPadded 4 expected.toNat ++ ", found 0x" ++ hexPadded 4 found.toNat
        ++ ") — the key is mistyped or truncated")
    else .ok ((body[0]?).getD 0, Vector.ofFn fun i => (body[i.val + 1]?).getD 0)

/-- Decode a StrKey into its version byte and payload. -/
def decodeStrkey (value : String) : Except String (UInt8 × Bytes32) :=
  if value.isEmpty then .error "the value is empty"
  else
    match (charIndices 0 value.toList).find? fun ic => !inAlphabet ic.2 with
    | some (index, c) =>
      .error (if c.isLower && inAlphabet c.toUpper then
        "character '" ++ c.toString ++ "' at position " ++ toString index
          ++ " is lowercase; StrKey is case-sensitive and uses uppercase"
      else
        "character '" ++ c.toString ++ "' at position " ++ toString index
          ++ " is outside the StrKey base-32 alphabet (A-Z, 2-7)")
    | none =>
      if value.length ≠ strkeyLen then
        .error ("expected " ++ toString strkeyLen ++ " characters, got " ++ toString value.length
          ++ " (addresses copied from log lines are often truncated)")
      else
        match base32Decode value with
        | none => .error "value does not decode as base-32"
        | some raw => decodeRaw raw

/-- Validate one address-typed CLI value against the rule for `kind`. -/
def validateKey (field : String) (kind : KeyKind) (value : String) : Except String Bytes32 :=
  match decodeStrkey value with
  | .error reason =>
    .error ("invalid " ++ field ++ " '" ++ value ++ "': " ++ reason ++ "; expected " ++ kind.rule)
  | .ok (version, key) =>
    if version ∉ kind.versions then
      .error ("invalid " ++ field ++ " '" ++ value ++ "': " ++ versionName version
        ++ " is not accepted here; expected " ++ kind.rule)
    else .ok key

/-! ## Characters and symbols -/

/-- The byte of a symbol. -/
def b32Byte (v : ℕ) : UInt8 := (b32[v]?).getD 0

theorem findIdx?_b32Byte {v : ℕ} (hv : v < 2 ^ 5) :
    (b32.findIdx? fun a => a = b32Byte v) = some v := by
  have h : ∀ v : Fin 32, (b32.findIdx? fun a => a = b32Byte v) = some v.val := by decide
  exact h ⟨v, hv⟩

theorem b32Byte_ne_pad {v : ℕ} (hv : v < 2 ^ 5) : b32Byte v ≠ 61 := by
  have h : ∀ v : Fin 32, b32Byte v ≠ 61 := by decide
  exact h ⟨v, hv⟩

/-- A symbol's character is one byte, and in the alphabet. -/
theorem b32Char_spec {v : ℕ} (hv : v < 2 ^ 5) :
    String.utf8EncodeChar (b32Char v) = [b32Byte v] ∧ inAlphabet (b32Char v) = true := by
  have h : ∀ v : Fin 32, String.utf8EncodeChar (b32Char v) = [b32Byte v] ∧
      inAlphabet (b32Char v) = true := by decide
  exact h ⟨v, hv⟩

/-- **The alphabet check admits the symbols and nothing else.** -/
theorem exists_of_inAlphabet {c : Char} (h : inAlphabet c = true) : ∃ v < 2 ^ 5, c = b32Char v := by
  rw [inAlphabet, Bool.and_eq_true, Bool.and_eq_true, decide_eq_true_eq] at h
  obtain ⟨⟨hascii, hlower⟩, hmem⟩ := h
  have hupper : c.toUpper = c := by
    refine dif_neg fun hrange => ?_
    have hislower : c.isLower = true := by
      show (decide _ && decide _) = true
      rw [decide_eq_true hrange.1, decide_eq_true hrange.2]
      rfl
    rw [hislower] at hlower
    exact absurd hlower (by decide)
  rw [hupper, List.contains_iff_mem, List.mem_iff_getElem?] at hmem
  obtain ⟨v, hv⟩ := hmem
  refine ⟨v, (List.getElem?_eq_some_iff.mp hv).1, ?_⟩
  rw [b32Char, hv, Option.getD_some, UInt8.toNat_ofNat', Nat.mod_eq_of_lt (by omega)]
  exact (Char.ofNat_toNat c).symm

/-- Every string of the alphabet spells symbols. -/
theorem exists_symbols {cs : List Char} (h : ∀ c ∈ cs, inAlphabet c = true) :
    ∃ vs : List ℕ, (∀ v ∈ vs, v < 2 ^ 5) ∧ cs = vs.map b32Char := by
  induction cs with
  | nil => exact ⟨[], by simp, rfl⟩
  | cons c cs ih =>
    obtain ⟨hc, hcs⟩ := List.forall_mem_cons.mp h
    obtain ⟨v, hv, rfl⟩ := exists_of_inAlphabet hc
    obtain ⟨vs, hvs, rfl⟩ := ih hcs
    exact ⟨v :: vs, List.forall_mem_cons.mpr ⟨hv, hvs⟩, rfl⟩

theorem utf8Bytes_symbols {vs : List ℕ} (h : ∀ v ∈ vs, v < 2 ^ 5) :
    utf8Bytes (String.ofList (vs.map b32Char)) = vs.map b32Byte := by
  rw [utf8Bytes, String.toList_ofList]
  induction vs with
  | nil => rfl
  | cons v vs ih =>
    obtain ⟨hv, hvs⟩ := List.forall_mem_cons.mp h
    rw [List.map_cons, List.map_cons, List.flatMap_cons, (b32Char_spec hv).1, ih hvs]
    rfl

/-! ## The two loops regroup -/

theorem mapM_u8TryFrom {xs : List ℕ} (h : ∀ x ∈ xs, x < 2 ^ 8) :
    xs.mapM u8TryFrom = some (xs.map UInt8.ofNat) := by
  induction xs with
  | nil => rfl
  | cons x xs ih =>
    obtain ⟨hx, hxs⟩ := List.forall_mem_cons.mp h
    have hbyte : u8TryFrom x = some (UInt8.ofNat x) := if_pos hx
    rw [List.mapM_cons, ih hxs, hbyte]
    rfl

/-- One symbol into the decoder. -/
theorem decode_feed {b : BitBuffer} (hb : b.Short 8) {v : ℕ} (hv : v < 2 ^ 5) :
    let (out, b') := b.feed 32 5 8 v
    Splits 8 (b.bits + 5) (b.acc * 2 ^ 5 + v) out b' := b.feed_spec (by decide) (by decide) hb hv

/-- One byte into the encoder. -/
theorem encode_feed {b : BitBuffer} (hb : b.Short 5) (x : UInt8) :
    let (out, b') := b.feed 32 8 5 x.toNat
    Splits 5 (b.bits + 8) (b.acc * 2 ^ 8 + x.toNat) out b' :=
  b.feed_spec (by decide) (by decide) hb x.toNat_lt

/-- **The decoder regroups symbols into bytes.** -/
theorem base32DecodeFrom_symbols (vs : List ℕ) :
    ∀ {b : BitBuffer}, b.Short 8 → (∀ v ∈ vs, v < 2 ^ 5) →
      base32DecodeFrom b (vs.map b32Byte)
        = some ((regroup 32 5 8 b vs).1.map UInt8.ofNat) := by
  induction vs with
  | nil => exact fun _ _ => rfl
  | cons v vs ih =>
    intro b hb h
    obtain ⟨hv, hvs⟩ := List.forall_mem_cons.mp h
    have hfeed := decode_feed hb hv
    rw [List.map_cons, base32DecodeFrom, if_neg (b32Byte_ne_pad hv), findIdx?_b32Byte hv, regroup,
      Option.bind_eq_bind, Option.bind_some]
    generalize b.feed 32 5 8 v = r at hfeed ⊢
    obtain ⟨out, b'⟩ := r
    dsimp only
    rw [mapM_u8TryFrom hfeed.symbols, ih hfeed.short hvs, List.map_append]
    rfl

/-- **The encoder regroups bytes into symbols.** -/
theorem base32EncodeFrom_eq (data : List UInt8) :
    ∀ (b : BitBuffer), base32EncodeFrom b data
      = (regroup 32 8 5 b (data.map UInt8.toNat)).1.map b32Char
        ++ base32EncodeFrom (regroup 32 8 5 b (data.map UInt8.toNat)).2 [] := by
  induction data with
  | nil => exact fun _ => rfl
  | cons x data ih =>
    intro b
    have hcons : base32EncodeFrom b (x :: data) = (b.feed 32 8 5 x.toNat).1.map b32Char
        ++ base32EncodeFrom (b.feed 32 8 5 x.toNat).2 data := rfl
    rw [hcons, ih, List.map_cons, regroup, List.map_append, List.append_assoc]

theorem toNat_lt_two_pow (data : List UInt8) : ∀ x ∈ data.map UInt8.toNat, x < 2 ^ 8 := by
  intro x hx
  obtain ⟨b, -, rfl⟩ := List.mem_map.mp hx
  exact b.toNat_lt

theorem map_ofNat_toNat (data : List UInt8) : (data.map UInt8.toNat).map UInt8.ofNat = data := by
  rw [List.map_map]
  exact (List.map_congr_left fun x _ => UInt8.ofNat_toNat).trans (List.map_id data)

theorem map_toNat_ofNat {xs : List ℕ} (h : ∀ x ∈ xs, x < 2 ^ 8) :
    (xs.map UInt8.ofNat).map UInt8.toNat = xs := by
  rw [List.map_map]
  refine (List.map_congr_left fun x hx => ?_).trans (List.map_id xs)
  exact UInt8.toNat_ofNat_of_lt' (h x hx)

/-- **35 bytes are 56 symbols**, which spell the same number and regroup into the bytes. -/
theorem base32Encode_symbols {data : List UInt8} (hlen : data.length = 35) :
    ∃ vs : List ℕ, base32Encode data = String.ofList (vs.map b32Char) ∧ vs.length = strkeyLen ∧
      (∀ v ∈ vs, v < 2 ^ 5) ∧ spelled 5 vs = spelled 8 (data.map UInt8.toNat) ∧
      regroup 32 5 8 ⟨0, 0⟩ vs = (data.map UInt8.toNat, ⟨0, 0⟩) := by
  have hword : 8 + 5 ≤ 32 := by decide
  have hwidths : 8 * (data.map UInt8.toNat).length = 5 * strkeyLen := by
    rw [List.length_map, hlen]
    rfl
  obtain ⟨vs, hrun, hcount, hvs, hspelled, hback⟩ :=
    regroup_regroup (by decide) (by decide) hword (toNat_lt_two_pow data) hwidths
  refine ⟨vs, ?_, hcount, hvs, hspelled, hback⟩
  rw [base32Encode, base32EncodeFrom_eq, hrun]
  exact congrArg String.ofList (List.append_nil _)

/-- **35 bytes are 56 characters of the alphabet, and decode to themselves.** -/
theorem base32Encode_spec {data : List UInt8} (hlen : data.length = 35) :
    (base32Encode data).length = strkeyLen ∧
      (∀ c ∈ (base32Encode data).toList, inAlphabet c = true) ∧
      base32Decode (base32Encode data) = some data := by
  obtain ⟨vs, henc, hcount, hvs, -, hback⟩ := base32Encode_symbols hlen
  rw [henc, base32Decode, utf8Bytes_symbols hvs,
    base32DecodeFrom_symbols vs (BitBuffer.short_empty (by decide)) hvs, hback]
  refine ⟨by rw [String.length_ofList, List.length_map, hcount], fun c hc => ?_, ?_⟩
  · rw [String.toList_ofList] at hc
    obtain ⟨v, hv, rfl⟩ := List.mem_map.mp hc
    exact (b32Char_spec (hvs v hv)).2
  · rw [map_ofNat_toNat]

/-- **56 characters of the alphabet decode to 35 bytes, and these encode to nothing else.** -/
theorem base32Decode_spec {s : String} (hlen : s.length = strkeyLen)
    (hs : ∀ c ∈ s.toList, inAlphabet c = true) :
    ∃ raw, base32Decode s = some raw ∧ raw.length = 35 ∧ base32Encode raw = s := by
  obtain ⟨vs, hvs, hsymbols⟩ := exists_symbols hs
  obtain rfl : s = String.ofList (vs.map b32Char) := by rw [← hsymbols, String.ofList_toList]
  rw [String.length_ofList, List.length_map] at hlen
  have hword : 5 + 8 ≤ 32 := by decide
  have hwidths : 5 * vs.length = 8 * 35 := by rw [hlen]; rfl
  obtain ⟨xs, hrun, hcount, hxs, -, hback⟩ :=
    regroup_regroup (by decide) (by decide) hword hvs hwidths
  refine ⟨xs.map UInt8.ofNat, ?_, by rw [List.length_map, hcount], ?_⟩
  · rw [base32Decode, utf8Bytes_symbols hvs,
      base32DecodeFrom_symbols vs (BitBuffer.short_empty (by decide)) hvs, hrun]
  · rw [base32Encode, base32EncodeFrom_eq, map_toNat_ofNat hxs, hback]
    exact congrArg String.ofList (List.append_nil _)

/-! ## The envelope -/

theorem toNat_crcBytes (crc : UInt16) :
    (crc &&& 0xff).toUInt8.toNat = crc.toNat % 2 ^ 8 ∧
      (crc >>> 8).toUInt8.toNat = crc.toNat / 2 ^ 8 := by
  have hcrc := crc.toNat_lt
  constructor
  · rw [UInt16.toNat_toUInt8, UInt16.toNat_and]
    show (crc.toNat &&& 2 ^ 8 - 1) % 2 ^ 8 = _
    rw [Nat.and_two_pow_sub_one_eq_mod, Nat.mod_mod]
  · rw [UInt16.toNat_toUInt8, UInt16.toNat_shiftRight, Nat.shiftRight_eq_div_pow]
    show crc.toNat / 2 ^ 8 % 2 ^ 8 = _
    omega

/-- **The two bytes of a checksum are the checksum.** -/
theorem checksum_eq_iff (crc : UInt16) (lo hi : UInt8) :
    crc = ((hi.toUInt16 <<< (8 : UInt16)) ||| lo.toUInt16) ↔ [lo, hi] = crcBytes crc := by
  have hcrc := crc.toNat_lt
  have hlo := lo.toNat_lt
  have hhi := hi.toNat_lt
  have hfound : ((hi.toUInt16 <<< (8 : UInt16)) ||| lo.toUInt16).toNat
      = 2 ^ 8 * hi.toNat + lo.toNat := by
    rw [UInt16.toNat_or, UInt16.toNat_shiftLeft, UInt8.toNat_toUInt16, UInt8.toNat_toUInt16,
      Nat.shiftLeft_eq, Nat.mod_eq_of_lt, mul_comm]
    · exact (Nat.two_pow_add_eq_or_of_lt hlo hi.toNat).symm
    · show hi.toNat * 2 ^ 8 < 2 ^ 16
      omega
  obtain ⟨hlow, hhigh⟩ := toNat_crcBytes crc
  simp only [crcBytes, List.cons.injEq, and_true, ← UInt16.toNat_inj, ← UInt8.toNat_inj, hfound,
    hlow, hhigh]
  omega

theorem exists_envelope {raw : List UInt8} (h : raw.length = 35) :
    ∃ (version : UInt8) (key : Bytes32) (lo hi : UInt8),
      raw = version :: key.toList ++ [lo, hi] := by
  obtain ⟨version, rest, rfl⟩ := List.exists_cons_of_length_pos (by omega : 0 < raw.length)
  have hrest : rest.length = 34 := by simpa using h
  obtain ⟨lo, hi, hchecksum⟩ := List.length_eq_two.mp
    (show (rest.drop 32).length = 2 by rw [List.length_drop, hrest])
  refine ⟨version, ⟨(rest.take 32).toArray, by simp [hrest]⟩, lo, hi, ?_⟩
  rw [← hchecksum, Vector.toList, List.toList_toArray, List.cons_append, List.take_append_drop]

/-- The last checks, on the bytes of an envelope. -/
theorem decodeRaw_envelope {version : UInt8} {key : Bytes32} {lo hi : UInt8}
    {r : UInt8 × Bytes32} :
    decodeRaw (version :: key.toList ++ [lo, hi]) = .ok r ↔
      [lo, hi] = crcBytes (crc16Xmodem (version :: key.toList)) ∧ r = (version, key) := by
  have hbody : (version :: key.toList).length = 33 := by simp
  have hlen : (version :: key.toList ++ [lo, hi]).length - 2 = (version :: key.toList).length := by
    simp
  have hkey : (Vector.ofFn fun i : Fin 32 => ((version :: key.toList)[i.val + 1]?).getD 0)
      = key := by
    ext i hi
    simp
  have hchecksum := checksum_eq_iff (crc16Xmodem (version :: key.toList)) lo hi
  simp only [decodeRaw, hlen, List.take_left, List.drop_left]
  rw [if_neg (by simp [hbody])]
  simp only [List.getElem?_cons_zero, List.getElem?_cons_succ, Option.getD_some] at hkey ⊢
  rw [hkey]
  split_ifs with hcrc
  · simp [mt hchecksum.mpr hcrc]
  · simp [hchecksum.mp (not_not.mp hcrc), eq_comm]

theorem find?_charIndices_eq_none_iff (cs : List Char) :
    ∀ i : ℕ, ((charIndices i cs).find? fun ic => !inAlphabet ic.2) = none ↔
      ∀ c ∈ cs, inAlphabet c = true := by
  induction cs with
  | nil => simp [charIndices]
  | cons c cs ih =>
    intro i
    rw [charIndices, List.find?_cons, List.forall_mem_cons, ← ih (i + c.utf8Size)]
    cases inAlphabet c <;> simp

/-- What is accepted has the length and the alphabet of a key. -/
theorem spelling_of_decodeStrkey {s : String} {r : UInt8 × Bytes32} (h : decodeStrkey s = .ok r) :
    s.length = strkeyLen ∧ ∀ c ∈ s.toList, inAlphabet c = true := by
  rw [decodeStrkey] at h
  cases hfind : (charIndices 0 s.toList).find? fun ic => !inAlphabet ic.2 with
  | some ic =>
    simp only [hfind] at h
    split_ifs at h
  | none =>
    simp only [hfind] at h
    split_ifs at h with hempty hlen
    exact ⟨not_not.mp hlen, (find?_charIndices_eq_none_iff _ 0).mp hfind⟩

/-- With the length and the alphabet of a key, it is up to the decoded bytes. -/
theorem decodeStrkey_of_spelling {s : String} (hlen : s.length = strkeyLen)
    (hs : ∀ c ∈ s.toList, inAlphabet c = true) {raw : List UInt8}
    (hdecode : base32Decode s = some raw) : decodeStrkey s = decodeRaw raw := by
  have hempty : s.isEmpty = false := by
    by_contra hno
    rw [Bool.not_eq_false, String.isEmpty_iff] at hno
    rw [hno] at hlen
    exact absurd hlen (by decide)
  rw [decodeStrkey, hempty]
  simp only [Bool.false_eq_true, if_false, (find?_charIndices_eq_none_iff _ 0).mpr hs, hdecode,
    hlen, ne_eq, not_true_eq_false]

/-- **The decoder accepts the encodings and nothing else.** -/
theorem decodeStrkey_eq_ok_iff {s : String} {version : UInt8} {key : Bytes32} :
    decodeStrkey s = .ok (version, key) ↔ s = strkeyEncode version key.toList := by
  refine ⟨fun h => ?_, ?_⟩
  · obtain ⟨hlen, hs⟩ := spelling_of_decodeStrkey h
    obtain ⟨raw, hdecode, hraw, hencode⟩ := base32Decode_spec hlen hs
    obtain ⟨version', key', lo, hi, rfl⟩ := exists_envelope hraw
    rw [decodeStrkey_of_spelling hlen hs hdecode] at h
    obtain ⟨hchecksum, heq⟩ := decodeRaw_envelope.mp h
    obtain ⟨rfl, rfl⟩ := Prod.mk.inj heq
    rw [strkeyEncode, ← hchecksum, hencode]
  · rintro rfl
    have hraw : (version :: key.toList ++ crcBytes (crc16Xmodem (version :: key.toList))).length
        = 35 := by simp [crcBytes]
    obtain ⟨hlen, hs, hdecode⟩ := base32Encode_spec hraw
    exact (decodeStrkey_of_spelling hlen hs hdecode).trans (decodeRaw_envelope.mpr ⟨rfl, rfl⟩)

/-- **A flag accepts the encodings under its kind's versions and nothing else.** -/
theorem validateKey_eq_ok_iff {field s : String} {kind : KeyKind} {key : Bytes32} :
    validateKey field kind s = .ok key ↔
      ∃ version ∈ kind.versions, s = strkeyEncode version key.toList := by
  rw [validateKey]
  cases hdecode : decodeStrkey s with
  | error reason =>
    refine ⟨?_, ?_⟩
    · simp
    · rintro ⟨version, -, hs⟩
      simp [decodeStrkey_eq_ok_iff.mpr hs] at hdecode
  | ok r =>
    obtain ⟨version, key'⟩ := r
    have hunique : ∀ version', s = strkeyEncode version' key.toList →
        version' = version ∧ key' = key := by
      intro version' hs
      have heq := hdecode.symm.trans (decodeStrkey_eq_ok_iff.mpr hs)
      simp only [Except.ok.injEq, Prod.mk.injEq] at heq
      exact ⟨heq.1.symm, heq.2⟩
    dsimp only
    by_cases hversion : version ∈ kind.versions
    · rw [if_neg (not_not.mpr hversion)]
      refine ⟨fun h => ⟨version, hversion, ?_⟩, ?_⟩
      · rw [← Except.ok.inj h]
        exact decodeStrkey_eq_ok_iff.mp hdecode
      · rintro ⟨version', -, hs⟩
        rw [(hunique version' hs).2]
    · rw [if_pos hversion]
      refine ⟨by simp, ?_⟩
      rintro ⟨version', hmem, hs⟩
      exact absurd ((hunique version' hs).1 ▸ hmem) hversion

/-- **The StrKey codec is a bijection onto the accepted strings**: what is encoded decodes to
itself, what is accepted is the encoding of what it decodes to, so a key has one accepted spelling;
a flag accepts exactly the encodings under its kind's versions; and no string is both a contract and
an account or a secret. -/
theorem strkey_bijective :
    (∀ (version : UInt8) (key : Bytes32),
      decodeStrkey (strkeyEncode version key.toList) = .ok (version, key)) ∧
    (∀ (s : String) (version : UInt8) (key : Bytes32),
      decodeStrkey s = .ok (version, key) → s = strkeyEncode version key.toList) ∧
    (∀ (s s' : String) (r : UInt8 × Bytes32),
      decodeStrkey s = .ok r → decodeStrkey s' = .ok r → s = s') ∧
    (∀ (field : String) (kind : KeyKind) (s : String),
      (∃ key, validateKey field kind s = .ok key) ↔
        ∃ version ∈ kind.versions, ∃ key : Bytes32, s = strkeyEncode version key.toList) ∧
    ∀ (s field field' : String) (kind : KeyKind) (key key' : Bytes32),
      kind = .account ∨ kind = .secret →
        validateKey field kind s = .ok key → validateKey field' .contract s ≠ .ok key' := by
  refine ⟨fun version key => decodeStrkey_eq_ok_iff.mpr rfl,
    fun s version key => decodeStrkey_eq_ok_iff.mp, fun s s' r h h' => ?_, fun field kind s => ?_,
    fun s field field' kind key key' hkind h h' => ?_⟩
  · obtain ⟨version, key⟩ := r
    rw [decodeStrkey_eq_ok_iff.mp h, decodeStrkey_eq_ok_iff.mp h']
  · simp only [validateKey_eq_ok_iff]
    refine ⟨?_, ?_⟩
    · rintro ⟨key, version, hmem, hs⟩
      exact ⟨version, hmem, key, hs⟩
    · rintro ⟨version, hmem, key, hs⟩
      exact ⟨key, version, hmem, hs⟩
  · obtain ⟨version, hmem, hs⟩ := validateKey_eq_ok_iff.mp h
    obtain ⟨version', hmem', hs'⟩ := validateKey_eq_ok_iff.mp h'
    have heq := (decodeStrkey_eq_ok_iff.mpr hs).symm.trans (decodeStrkey_eq_ok_iff.mpr hs')
    simp only [Except.ok.injEq, Prod.mk.injEq] at heq
    obtain rfl := heq.1
    obtain rfl := List.mem_singleton.mp hmem'
    rcases hkind with rfl | rfl <;> exact absurd hmem (by decide)

end AgentGuard.AgentTx
