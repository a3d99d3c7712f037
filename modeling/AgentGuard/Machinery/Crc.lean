import AgentGuard.Machinery.BitGroups
import Mathlib.Logic.Function.Iterate

/-!
# Machinery/Crc — checksums by polynomial division

A message is a number of so many bits, divided by the polynomial a bit at a time.  The division is
linear in exclusive or (`crc_xor`), so an error is seen exactly when its own checksum is not the one
that goes with it; and a round loses nothing once the polynomial is odd, so no error that fits the
register has checksum zero, wherever it stands (`crc_burst_ne_zero`).
-/

namespace Machinery

/-! ## The division -/

variable {w : ℕ}

/-- One bit of the division. -/
def crcRound (poly c : BitVec w) : BitVec w := if c.msb then (c <<< 1) ^^^ poly else c <<< 1

/-- The last bit of `n`, where a round takes it in. -/
def topBit (w n : ℕ) : BitVec w := BitVec.ofNat w (n % 2) <<< (w - 1)

/-- **The checksum of a message of `len` bits**, the most significant first. -/
def crc (poly : BitVec w) : ℕ → ℕ → BitVec w
  | 0, _ => 0#w
  | len + 1, n => crcRound poly (crc poly len (n / 2) ^^^ topBit w n)

section

variable {poly : BitVec w}

theorem crcRound_xor (c d : BitVec w) :
    crcRound poly (c ^^^ d) = crcRound poly c ^^^ crcRound poly d := by
  have hcancel : ∀ x y : BitVec w, x ^^^ poly ^^^ (y ^^^ poly) = x ^^^ y := fun x y => by
    rw [BitVec.xor_comm y, BitVec.xor_assoc, ← BitVec.xor_assoc poly, BitVec.xor_self,
      BitVec.zero_xor]
  have hswap : ∀ x y : BitVec w, x ^^^ y ^^^ poly = x ^^^ poly ^^^ y := fun x y => by ac_rfl
  simp only [crcRound, BitVec.msb_xor, BitVec.shiftLeft_xor_distrib]
  cases c.msb <;> cases d.msb
  · rfl
  · exact BitVec.xor_assoc _ _ _
  · exact hswap _ _
  · exact (hcancel _ _).symm

theorem crcRounds_xor (k : ℕ) (c d : BitVec w) :
    (crcRound poly)^[k] (c ^^^ d) = (crcRound poly)^[k] c ^^^ (crcRound poly)^[k] d := by
  induction k generalizing c d with
  | zero => rfl
  | succ k ih => simp only [Function.iterate_succ_apply, crcRound_xor, ih]

theorem crcRound_zero : crcRound poly 0#w = 0#w := by simp [crcRound]

theorem crcRounds_zero (k : ℕ) : (crcRound poly)^[k] 0#w = 0#w :=
  Function.iterate_fixed crcRound_zero k

theorem topBit_xor (m n : ℕ) : topBit w (m ^^^ n) = topBit w m ^^^ topBit w n := by
  have hmod : (m ^^^ n) % 2 = m % 2 ^^^ n % 2 := @Nat.xor_mod_two_pow m n 1
  rw [topBit, hmod, BitVec.ofNat_xor, BitVec.shiftLeft_xor_distrib]
  rfl

/-- **Linearity.** -/
theorem crc_xor (len m n : ℕ) : crc poly len (m ^^^ n) = crc poly len m ^^^ crc poly len n := by
  induction len generalizing m n with
  | zero => exact (BitVec.xor_self).symm
  | succ len ih =>
    simp only [crc, Nat.xor_div_two, ih, topBit_xor, ← crcRound_xor]
    congr 1
    ac_rfl

/-- Zeros at the end are rounds. -/
theorem crc_mul_two_pow (len k n : ℕ) :
    crc poly (len + k) (n * 2 ^ k) = (crcRound poly)^[k] (crc poly len n) := by
  induction k with
  | zero => simp
  | succ k ih =>
    have hhalf : n * 2 ^ (k + 1) / 2 = n * 2 ^ k := by
      rw [pow_succ, ← mul_assoc, Nat.mul_div_cancel _ Nat.two_pos]
    have heven : topBit w (n * 2 ^ (k + 1)) = 0#w := by
      have hmod : n * 2 ^ (k + 1) % 2 = 0 := by
        rw [pow_succ, ← mul_assoc, Nat.mul_mod_left]
      simp [topBit, hmod]
    rw [← add_assoc, crc, hhalf, ih, heven, BitVec.xor_zero, Function.iterate_succ_apply']

/-- Zeros in front do not count. -/
theorem crc_of_lt {len n : ℕ} (k : ℕ) (h : n < 2 ^ len) :
    crc poly (len + k) n = crc poly len n := by
  induction len generalizing n with
  | zero =>
    obtain rfl : n = 0 := by simpa using h
    have hzero := @crc_mul_two_pow w poly 0 k 0
    rwa [zero_mul, show crc poly 0 0 = 0#w from rfl, crcRounds_zero] at hzero
  | succ len ih =>
    have hhalf : n / 2 < 2 ^ len := by
      rw [pow_succ] at h
      omega
    rw [Nat.add_right_comm, crc, ih hhalf, crc]

/-- A bit below the top only moves up. -/
theorem crcRounds_ofNat {k m : ℕ} (hk : k ≤ w) (h : m < 2 ^ (w - k)) :
    (crcRound poly)^[k] (BitVec.ofNat w m) = BitVec.ofNat w (m * 2 ^ k) := by
  induction k generalizing m with
  | zero => simp
  | succ k ih =>
    have hpow : 2 ^ (w - k) = 2 ^ (w - (k + 1)) * 2 := by
      rw [← pow_succ]
      congr 1
      omega
    have hsmall : m < 2 ^ (w - 1) := h.trans_le (Nat.pow_le_pow_right Nat.two_pos (by omega))
    have hfits : m < 2 ^ w := hsmall.trans_le (Nat.pow_le_pow_right Nat.two_pos (by omega))
    have hmsb : (BitVec.ofNat w m).msb = false := by
      rw [BitVec.msb_eq_decide, BitVec.toNat_ofNat, Nat.mod_eq_of_lt hfits, decide_eq_false_iff_not]
      exact not_le.mpr hsmall
    have hround : crcRound poly (BitVec.ofNat w m) = BitVec.ofNat w (m * 2) := by
      rw [crcRound, hmsb, if_neg Bool.false_ne_true]
      refine BitVec.eq_of_toNat_eq ?_
      simp [Nat.shiftLeft_eq, Nat.mod_mul_mod]
    rw [Function.iterate_succ_apply, hround, ih (by omega) (by omega), pow_succ]
    congr 1
    ring

/-- **A message no longer than the register** goes in at once. -/
theorem crc_eq_rounds {k n : ℕ} (hk : k ≤ w) (h : n < 2 ^ k) :
    crc poly k n = (crcRound poly)^[k] (BitVec.ofNat w (n * 2 ^ (w - k))) := by
  induction k generalizing n with
  | zero =>
    obtain rfl : n = 0 := by simpa using h
    simp [crc]
  | succ k ih =>
    have hhalf : n / 2 < 2 ^ k := by
      rw [pow_succ] at h
      omega
    have hpow : 2 ^ (w - k) = 2 * 2 ^ (w - (k + 1)) := by
      rw [← pow_succ']
      congr 1
      omega
    have hbit : n % 2 * 2 ^ (w - (k + 1)) < 2 ^ (w - k) := by
      rw [hpow]
      exact Nat.mul_lt_mul_of_pos_right (Nat.mod_lt n Nat.two_pos) (Nat.two_pow_pos _)
    -- the last bit apart from the others
    have hsplit : n * 2 ^ (w - (k + 1))
        = n / 2 * 2 ^ (w - k) ^^^ n % 2 * 2 ^ (w - (k + 1)) := by
      rw [← mul_two_pow_add_eq_xor _ hbit, hpow, ← mul_assoc, ← add_mul, Nat.div_add_mod']
    have htop : (crcRound poly)^[k] (BitVec.ofNat w (n % 2 * 2 ^ (w - (k + 1)))) = topBit w n := by
      rw [crcRounds_ofNat (by omega) hbit, mul_assoc, ← pow_add, topBit]
      refine BitVec.eq_of_toNat_eq ?_
      rw [show w - (k + 1) + k = w - 1 by omega]
      simp [Nat.shiftLeft_eq, Nat.mod_mul_mod]
    rw [crc, ih (by omega) hhalf, Function.iterate_succ_apply', hsplit, BitVec.ofNat_xor,
      crcRounds_xor, htop]

/-- **`k` bits at once**: absorbed at the top, then divided by `k` rounds. -/
theorem crc_append {len k m : ℕ} (n : ℕ) (hk : k ≤ w) (hm : m < 2 ^ k) :
    crc poly (len + k) (n * 2 ^ k + m)
      = (crcRound poly)^[k] (crc poly len n ^^^ BitVec.ofNat w (m * 2 ^ (w - k))) := by
  rw [mul_two_pow_add_eq_xor n hm, crc_xor, crc_mul_two_pow, crcRounds_xor, ← crc_eq_rounds hk hm,
    Nat.add_comm, crc_of_lt len hm]

/-! ## Errors -/

/-- **A round loses nothing**, when the polynomial is odd. -/
theorem crcRound_eq_zero_iff (hpoly : poly.getLsbD 0 = true) {c : BitVec w} :
    crcRound poly c = 0#w ↔ c = 0#w := by
  refine ⟨fun h => ?_, fun h => by rw [h, crcRound_zero]⟩
  have hw : 0 < w := by
    by_contra hzero
    obtain rfl : w = 0 := by omega
    simp at hpoly
  rw [crcRound] at h
  split_ifs at h with hmsb
  -- the bit shifted in is the polynomial's own
  · have hbit := congrArg (fun x : BitVec w => x.getLsbD 0) h
    simp [hpoly] at hbit
  · refine BitVec.eq_of_toNat_eq ?_
    have hval := congrArg BitVec.toNat h
    have hlt : c.toNat < 2 ^ (w - 1) := by
      rw [BitVec.msb_eq_decide, decide_eq_true_eq, not_le] at hmsb
      exact hmsb
    have hpow : 2 ^ w = 2 ^ (w - 1) * 2 := by
      rw [← pow_succ]
      congr 1
      omega
    rw [BitVec.toNat_shiftLeft, Nat.shiftLeft_eq, pow_one, Nat.mod_eq_of_lt (by omega)] at hval
    simp only [BitVec.toNat_ofNat, Nat.zero_mod] at hval ⊢
    omega

theorem crcRounds_eq_zero_iff (hpoly : poly.getLsbD 0 = true) {k : ℕ} {c : BitVec w} :
    (crcRound poly)^[k] c = 0#w ↔ c = 0#w := by
  induction k generalizing c with
  | zero => rfl
  | succ k ih => rw [Function.iterate_succ_apply, ih, crcRound_eq_zero_iff hpoly]

/-- **An error that fits the register is seen wherever it stands.** -/
theorem crc_burst_ne_zero (hpoly : poly.getLsbD 0 = true) {len e : ℕ} (k : ℕ) (hlen : e < 2 ^ len)
    (hfits : e < 2 ^ w) (hne : e ≠ 0) : crc poly (len + k) (e * 2 ^ k) ≠ 0#w := by
  rw [crc_mul_two_pow, ne_eq, crcRounds_eq_zero_iff hpoly]
  have hshort : ∀ l ≤ w, e < 2 ^ l → crc poly l e ≠ 0#w := fun l hl he => by
    rw [crc_eq_rounds hl he, ne_eq, crcRounds_eq_zero_iff hpoly]
    intro hzero
    have hval := congrArg BitVec.toNat hzero
    have hlt : e * 2 ^ (w - l) < 2 ^ w := by
      calc e * 2 ^ (w - l) < 2 ^ l * 2 ^ (w - l) :=
            Nat.mul_lt_mul_of_pos_right he (Nat.two_pow_pos _)
        _ = 2 ^ w := by rw [← pow_add, Nat.add_sub_cancel' hl]
    rw [BitVec.toNat_ofNat, Nat.mod_eq_of_lt hlt, BitVec.toNat_ofNat, Nat.zero_mod] at hval
    exact (Nat.mul_pos (Nat.pos_of_ne_zero hne) (Nat.two_pow_pos _)).ne' hval
  rcases le_total len w with hle | hle
  · exact hshort len hle hlen
  · obtain ⟨j, rfl⟩ := Nat.exists_eq_add_of_le hle
    rw [crc_of_lt j hfits]
    exact hshort w le_rfl hfits

end

end Machinery
