import AgentGuard.AgentTx.StrKey
import AgentGuard.Machinery.Crc
import Mathlib.Data.Nat.Bitwise

/-!
# AgentTx/Typos — a mistyped key is rejected

An accepted key spells a number of 280 bits whose last sixteen are the checksum of the others, with
its bytes swapped (`Checks`).  That is linear, so two accepted keys differ by a number that checks
as well (`Checks.xor`).  A typo differs by a few adjacent bits: inside the body the checksum sees
every such error (`not_checks_of_body`), and where it reaches into the checksum there are few enough
to look at (`not_checks_of_tail`).
-/

namespace AgentGuard.AgentTx

open Machinery

/-- The polynomial of CRC16-XModem. -/
def crcPoly : BitVec 16 := 0x1021#16

/-- The two bytes of a number, swapped. -/
def swapBytes (n : ℕ) : ℕ := n % 2 ^ 8 * 2 ^ 8 + n / 2 ^ 8 % 2 ^ 8

/-- **The last sixteen of 280 bits are the checksum of the others**, low byte first. -/
def Checks (n : ℕ) : Prop :=
  crc crcPoly 264 (n / 2 ^ 16) = BitVec.ofNat 16 (swapBytes (n % 2 ^ 16))

/-! ## The checksum of the code -/

theorem toBitVec_crc16Round (c : UInt16) :
    (crc16Round c).toBitVec = crcRound crcPoly c.toBitVec := by
  have htop : c &&& 0x8000 ≠ 0 ↔ c.toBitVec.msb = true := by
    have hand : (c &&& 0x8000).toBitVec
        = if c.toBitVec.getLsbD 15 then BitVec.twoPow 16 15 else 0#16 :=
      BitVec.and_twoPow c.toBitVec 15
    rw [ne_eq, ← UInt16.toBitVec_inj, hand, BitVec.msb_eq_getLsbD_last]
    cases c.toBitVec.getLsbD 15 <;> decide
  rw [crc16Round, crcRound]
  by_cases h : c.toBitVec.msb = true
  · rw [if_pos h, if_pos (htop.mpr h)]
    rfl
  · rw [if_neg h, if_neg (mt htop.mp h)]
    rfl

theorem toBitVec_crcByte (c : UInt16) :
    ((List.range 8).foldl (fun crc _ => crc16Round crc) c).toBitVec
      = (crcRound crcPoly)^[8] c.toBitVec := by
  show (crc16Round^[8] c).toBitVec = _
  exact (Function.Semiconj.iterate_right toBitVec_crc16Round 8).eq c

/-- **`crc16_xmodem` divides the number its bytes spell.** -/
theorem toBitVec_crc16Xmodem (data : List UInt8) :
    (crc16Xmodem data).toBitVec
      = crc crcPoly (8 * data.length) (spelled 8 (data.map UInt8.toNat)) := by
  induction data using List.reverseRecOn with
  | nil => rfl
  | append_singleton data b ih =>
    have hbyte : (b.toUInt16 <<< (8 : UInt16)).toBitVec
        = BitVec.ofNat 16 (b.toNat * 2 ^ (16 - 8)) := by
      refine BitVec.eq_of_toNat_eq ?_
      rw [UInt16.toNat_toBitVec, UInt16.toNat_shiftLeft, UInt8.toNat_toUInt16, Nat.shiftLeft_eq]
      rfl
    rw [crc16Xmodem, List.foldl_append, List.foldl_cons, List.foldl_nil, ← crc16Xmodem,
      toBitVec_crcByte, UInt16.toBitVec_xor, ih, hbyte, List.map_append, spelled_append,
      List.length_append]
    exact (crc_append _ (by decide) b.toNat_lt).symm

/-! ## Accepted keys -/

theorem swapBytes_xor (m n : ℕ) : swapBytes (m ^^^ n) = swapBytes m ^^^ swapBytes n := by
  have hlt : ∀ x : ℕ, x / 2 ^ 8 % 2 ^ 8 < 2 ^ 8 := fun x => Nat.mod_lt _ (Nat.two_pow_pos 8)
  rw [swapBytes, swapBytes, swapBytes, mul_two_pow_add_xor _ _ (hlt m) (hlt n), Nat.xor_div_two_pow,
    Nat.xor_mod_two_pow, Nat.xor_mod_two_pow]

/-- **Two numbers that check differ by one that checks.** -/
theorem Checks.xor {m n : ℕ} (hm : Checks m) (hn : Checks n) : Checks (m ^^^ n) := by
  rw [Checks, Nat.xor_div_two_pow, Nat.xor_mod_two_pow, crc_xor, swapBytes_xor, BitVec.ofNat_xor,
    hm, hn]

theorem swapBytes_lt (n : ℕ) : swapBytes n < 2 ^ 16 := by
  rw [swapBytes]
  omega

theorem swapBytes_swapBytes {n : ℕ} (hn : n < 2 ^ 16) : swapBytes (swapBytes n) = n := by
  have hlow : swapBytes n % 2 ^ 8 = n / 2 ^ 8 := by
    rw [swapBytes, mul_comm, Nat.mul_add_mod, Nat.mod_mod]
    exact Nat.mod_eq_of_lt (by omega)
  have hhigh : swapBytes n / 2 ^ 8 = n % 2 ^ 8 := by
    rw [swapBytes]
    omega
  rw [swapBytes, hlow, hhigh, Nat.mod_mod, Nat.div_add_mod']

/-- Bytes followed by their checksum spell a number that checks. -/
theorem checks_crcBytes {raw : List UInt8} (hlen : raw.length = 33) :
    Checks (spelled 8 ((raw ++ crcBytes (crc16Xmodem raw)).map UInt8.toNat)) := by
  obtain ⟨hlow, hhigh⟩ := toNat_crcBytes (crc16Xmodem raw)
  have hcrc := (crc16Xmodem raw).toNat_lt
  have htail : spelled 8 ((crcBytes (crc16Xmodem raw)).map UInt8.toNat)
      = swapBytes (crc16Xmodem raw).toNat := by
    have hbyte : (crc16Xmodem raw).toNat / 2 ^ 8 < 2 ^ 8 := by omega
    rw [crcBytes, List.map_cons, List.map_cons, List.map_nil, hlow, hhigh, spelled_cons,
      spelled_cons, swapBytes, Nat.mod_eq_of_lt hbyte]
    simp
  have hsplit : spelled 8 ((raw ++ crcBytes (crc16Xmodem raw)).map UInt8.toNat)
      = spelled 8 (raw.map UInt8.toNat) * 2 ^ 16 + swapBytes (crc16Xmodem raw).toNat := by
    rw [List.map_append, spelled_append, htail]
    rfl
  have hswap := swapBytes_lt (crc16Xmodem raw).toNat
  have hbody : (spelled 8 (raw.map UInt8.toNat) * 2 ^ 16 + swapBytes (crc16Xmodem raw).toNat)
      / 2 ^ 16 = spelled 8 (raw.map UInt8.toNat) := by omega
  have htail' : (spelled 8 (raw.map UInt8.toNat) * 2 ^ 16 + swapBytes (crc16Xmodem raw).toNat)
      % 2 ^ 16 = swapBytes (crc16Xmodem raw).toNat := by omega
  have hdivides := toBitVec_crc16Xmodem raw
  rw [hlen] at hdivides
  rw [Checks, hsplit, hbody, htail', swapBytes_swapBytes hcrc]
  exact hdivides.symm.trans (BitVec.ofNat_uInt16ToNat _).symm

/-- The symbol a character of the alphabet stands for. -/
def symbol (c : Char) : ℕ := b32.idxOf (UInt8.ofNat c.toNat)

theorem symbol_b32Char {v : ℕ} (hv : v < 2 ^ 5) : symbol (b32Char v) = v := by
  have h : ∀ v : Fin 32, symbol (b32Char v) = v.val := by decide
  exact h ⟨v, hv⟩

/-- **The symbols of an accepted string check**, and say which characters they are. -/
structure SpellsKey (cs : List Char) : Prop where
  count : cs.length = strkeyLen
  symbols : ∀ c ∈ cs, symbol c < 2 ^ 5 ∧ b32Char (symbol c) = c
  checks : Checks (spelled 5 (cs.map symbol))

theorem spellsKey_of_decodeStrkey {s : String} {r : UInt8 × Bytes32} (h : decodeStrkey s = .ok r) :
    SpellsKey s.toList := by
  obtain ⟨version, key⟩ := r
  obtain rfl := decodeStrkey_eq_ok_iff.mp h
  have hraw : (version :: key.toList).length = 33 := by simp
  obtain ⟨vs, henc, hcount, hvs, hspelled, -⟩ := base32Encode_symbols
    (show (version :: key.toList ++ crcBytes (crc16Xmodem (version :: key.toList))).length = 35 by
      simp [crcBytes])
  have hchars : (strkeyEncode version key.toList).toList = vs.map b32Char := by
    rw [strkeyEncode, henc, String.toList_ofList]
  have hback : (vs.map b32Char).map symbol = vs := by
    rw [List.map_map]
    exact (List.map_congr_left fun v hv => symbol_b32Char (hvs v hv)).trans (List.map_id vs)
  rw [hchars]
  refine ⟨by rw [List.length_map, hcount], fun c hc => ?_, ?_⟩
  · obtain ⟨v, hv, rfl⟩ := List.mem_map.mp hc
    rw [symbol_b32Char (hvs v hv)]
    exact ⟨hvs v hv, rfl⟩
  · rw [hback, hspelled]
    exact checks_crcBytes hraw

/-! ## Errors -/

/-- **Above the checksum**, an error is seen wherever it stands. -/
theorem not_checks_of_body {e k : ℕ} (hk : 16 ≤ k) (hk' : k ≤ 280) (hfits : e < 2 ^ 16)
    (hlen : e < 2 ^ (280 - k)) (hne : e ≠ 0) : ¬Checks (e * 2 ^ k) := by
  have hshift : e * 2 ^ k = e * 2 ^ (k - 16) * 2 ^ 16 := by
    rw [mul_assoc, ← pow_add, Nat.sub_add_cancel hk]
  have hsum : 264 = 280 - k + (k - 16) := by omega
  rw [Checks, hshift, Nat.mul_div_cancel _ (Nat.two_pow_pos 16), Nat.mul_mod_left, hsum]
  exact crc_burst_ne_zero (by decide) (k - 16) hlen hfits hne

/-- **Where it reaches into the checksum**, an error of one symbol or of two alike is seen. -/
theorem not_checks_of_tail {d j : ℕ} (hd : d < 2 ^ 5) (hne : d ≠ 0) (hj : j < 4) :
    ¬Checks (d * 2 ^ (5 * j)) ∧ ¬Checks (d * 33 * 2 ^ (5 * j)) := by
  have hshort : ∀ n < 2 ^ 26, Checks n ↔
      crc crcPoly 10 (n / 2 ^ 16) = BitVec.ofNat 16 (swapBytes (n % 2 ^ 16)) := fun n hn => by
    rw [Checks, @crc_of_lt 16 crcPoly 10 (n / 2 ^ 16) 254 (by omega)]
  have hpow : 2 ^ (5 * j) ≤ 2 ^ 15 := Nat.pow_le_pow_right Nat.two_pos (by omega)
  have hbound : d * 33 * 2 ^ (5 * j) < 2 ^ 26 := by
    calc d * 33 * 2 ^ (5 * j) ≤ 31 * 33 * 2 ^ 15 := Nat.mul_le_mul (by omega) hpow
      _ < 2 ^ 26 := by decide
  have hbound' : d * 2 ^ (5 * j) < 2 ^ 26 :=
    (Nat.mul_le_mul_right _ (Nat.le_mul_of_pos_right d (by decide))).trans_lt hbound
  rw [hshort _ hbound, hshort _ hbound']
  have hall : ∀ (d : Fin 32) (j : Fin 4), d.val ≠ 0 →
      (¬crc crcPoly 10 (d.val * 2 ^ (5 * j.val) / 2 ^ 16)
        = BitVec.ofNat 16 (swapBytes (d.val * 2 ^ (5 * j.val) % 2 ^ 16))) ∧
      ¬crc crcPoly 10 (d.val * 33 * 2 ^ (5 * j.val) / 2 ^ 16)
        = BitVec.ofNat 16 (swapBytes (d.val * 33 * 2 ^ (5 * j.val) % 2 ^ 16)) := by
    decide +kernel
  exact hall ⟨d, hd⟩ ⟨j, hj⟩ hne

/-- **An error of up to three adjacent symbols** is seen, if it is seen in the last four places. -/
theorem not_checks_of_symbols {count e j : ℕ} (hcount : count ≤ 3) (he : e < 2 ^ (5 * count))
    (hne : e ≠ 0) (hj : j + count ≤ strkeyLen) (htail : j < 4 → ¬Checks (e * 2 ^ (5 * j))) :
    ¬Checks (e * 2 ^ (5 * j)) := by
  have hlen : j + count ≤ 56 := hj
  rcases lt_or_ge j 4 with hlow | hbody
  · exact htail hlow
  · have hfits : e < 2 ^ 16 := he.trans_le (Nat.pow_le_pow_right Nat.two_pos (by omega))
    have hroom : e < 2 ^ (280 - 5 * j) :=
      he.trans_le (Nat.pow_le_pow_right Nat.two_pos (by omega))
    exact not_checks_of_body (by omega) (by omega) hfits hroom hne

theorem not_checks_replaced {d j : ℕ} (hd : d < 2 ^ 5) (hne : d ≠ 0) (hj : j + 1 ≤ strkeyLen) :
    ¬Checks (d * 2 ^ (5 * j)) :=
  not_checks_of_symbols (by decide) hd hne hj fun hlow => (not_checks_of_tail hd hne hlow).1

theorem not_checks_swapped {d j : ℕ} (hd : d < 2 ^ 5) (hne : d ≠ 0) (hj : j + 2 ≤ strkeyLen) :
    ¬Checks (d * 33 * 2 ^ (5 * j)) := by
  have hboth : d * 33 < 2 ^ (5 * 2) := by omega
  exact not_checks_of_symbols (by decide) hboth (by omega) hj fun hlow =>
    (not_checks_of_tail hd hne hlow).2

/-! ## Typos -/

/-- One character replaced by another, or two neighbours swapped. -/
inductive Typo : List Char → List Char → Prop
  | replace (before after : List Char) {c c' : Char} (h : c ≠ c') :
    Typo (before ++ [c] ++ after) (before ++ [c'] ++ after)
  | swap (before after : List Char) {c c' : Char} (h : c ≠ c') :
    Typo (before ++ [c, c'] ++ after) (before ++ [c', c] ++ after)

/-- Characters that differ stand for symbols that do. -/
theorem symbol_xor {cs cs' : List Char} (hcs : SpellsKey cs) (hcs' : SpellsKey cs') {c c' : Char}
    (hc : c ∈ cs) (hc' : c' ∈ cs') (hne : c ≠ c') :
    symbol c ^^^ symbol c' < 2 ^ 5 ∧ symbol c ^^^ symbol c' ≠ 0 := by
  obtain ⟨hlt, hback⟩ := hcs.symbols c hc
  obtain ⟨hlt', hback'⟩ := hcs'.symbols c' hc'
  refine ⟨Nat.xor_lt_two_pow hlt hlt', fun hzero => hne ?_⟩
  rw [← hback, ← hback', Nat.eq_of_xor_eq_zero hzero]

theorem spelled_one (c : Char) : spelled 5 ([c].map symbol) = symbol c := by
  rw [List.map_singleton, spelled_cons]
  simp

theorem spelled_two (c c' : Char) :
    spelled 5 ([c, c'].map symbol) = symbol c * 2 ^ 5 + symbol c' := by
  rw [List.map_cons, spelled_cons, spelled_one]
  rfl

/-- **Keys that differ in the middle** differ there by something that checks. -/
theorem checks_middle {before xs ys after : List Char} (hxs : SpellsKey (before ++ xs ++ after))
    (hys : SpellsKey (before ++ ys ++ after)) :
    Checks ((spelled 5 (xs.map symbol) ^^^ spelled 5 (ys.map symbol))
      * 2 ^ (5 * after.length)) := by
  have hlen : (xs.map symbol).length = (ys.map symbol).length := by
    have hcount := hxs.count.trans hys.count.symm
    simp only [List.length_append] at hcount
    rw [List.length_map, List.length_map]
    omega
  have hsymbols : ∀ (cs part : List Char), SpellsKey cs → part ⊆ cs →
      ∀ v ∈ part.map symbol, v < 2 ^ 5 := fun cs part hcs hpart v hv => by
    obtain ⟨c, hc, rfl⟩ := List.mem_map.mp hv
    exact (hcs.symbols c (hpart hc)).1
  have hdiffer := spelled_xor_middle (by decide) (before.map symbol) hlen
    (hsymbols _ xs hxs (by simp)) (hsymbols _ ys hys (by simp)) (hsymbols _ after hxs (by simp))
  have hchecks := hxs.checks.xor hys.checks
  rwa [List.map_append, List.map_append, List.map_append, List.map_append, hdiffer,
    List.length_map] at hchecks

/-- **Two accepted strings are no typo apart.** -/
theorem not_typo {cs cs' : List Char} (hcs : SpellsKey cs) (hcs' : SpellsKey cs') :
    ¬Typo cs cs' := by
  intro htypo
  have hcount := hcs.count
  cases htypo with
  | @replace before after c c' hdiff =>
    have hc : c ∈ before ++ [c] ++ after := by simp
    have hc' : c' ∈ before ++ [c'] ++ after := by simp
    obtain ⟨hlt, hne⟩ := symbol_xor hcs hcs' hc hc' hdiff
    have hchecks := checks_middle hcs hcs'
    rw [spelled_one, spelled_one] at hchecks
    refine not_checks_replaced hlt hne ?_ hchecks
    simp only [List.length_append, List.length_singleton] at hcount
    omega
  | @swap before after c c' hdiff =>
    have hc : c ∈ before ++ [c, c'] ++ after := by simp
    have hc' : c' ∈ before ++ [c', c] ++ after := by simp
    obtain ⟨hlt, hne⟩ := symbol_xor hcs hcs' hc hc' hdiff
    have hchecks := checks_middle hcs hcs'
    rw [spelled_two, spelled_two, mul_two_pow_add_xor _ _ (hcs'.symbols c' hc').1
      (hcs.symbols c hc).1, Nat.xor_comm (symbol c') (symbol c), ← Nat.mul_succ] at hchecks
    refine not_checks_swapped hlt hne ?_ hchecks
    simp only [List.length_append, List.length_cons, List.length_nil] at hcount
    omega

/-- **A typo is caught**: one character replaced, or two neighbours swapped, and a key that was
accepted is no longer. -/
theorem typo_rejected {s s' : String} {r : UInt8 × Bytes32} (h : decodeStrkey s = .ok r)
    (htypo : Typo s.toList s'.toList) : ∃ e, decodeStrkey s' = .error e := by
  cases h' : decodeStrkey s' with
  | error e => exact ⟨e, rfl⟩
  | ok r' =>
    exact absurd htypo (not_typo (spellsKey_of_decodeStrkey h) (spellsKey_of_decodeStrkey h'))

namespace Sample

/-- The account of 32 zero bytes, and the string that starts with a `C`. -/
theorem misread_rejected :
    decodeStrkey "GAAAAAAAAAAAAAAAAAAAAAAAAAAAAAAAAAAAAAAAAAAAAAAAAAAAAWHF"
      = .ok (verAccount, Vector.replicate 32 0) ∧
    ∃ e, decodeStrkey "CAAAAAAAAAAAAAAAAAAAAAAAAAAAAAAAAAAAAAAAAAAAAAAAAAAAAWHF" = .error e := by
  have hkey : decodeStrkey "GAAAAAAAAAAAAAAAAAAAAAAAAAAAAAAAAAAAAAAAAAAAAAAAAAAAAWHF"
      = .ok (verAccount, Vector.replicate 32 0) := decodeStrkey_eq_ok_iff.mpr (by decide +kernel)
  have htypo := Typo.replace [] (List.replicate 52 'A' ++ ['W', 'H', 'F'])
    (show 'G' ≠ 'C' by decide)
  exact ⟨hkey, typo_rejected hkey htypo⟩

end Sample

end AgentGuard.AgentTx
