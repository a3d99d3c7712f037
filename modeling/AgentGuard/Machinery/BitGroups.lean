import Mathlib.Data.Nat.Digits.Lemmas
import Mathlib.Tactic.Ring

/-!
# Machinery/BitGroups — regrouping bits through an accumulator

A bit accumulator takes symbols of one width in and gives symbols of another width out, most
significant bits first.  Read as numbers (`spelled`), nothing is lost on the way: what went in is
what came out and what is still held (`regroup_spec`).  When the widths come out even, regrouping
back gives the symbols back (`regroup_regroup`), and when they do not, padding the last symbol does
no harm (`regroup_regroup_padded`).  Exclusive or goes through digit by digit, so lists that differ
in the middle spell numbers that differ there (`spelled_xor_middle`).
-/

namespace Machinery

/-- The number a list of `width`-bit symbols spells. -/
def spelled (width : ℕ) (xs : List ℕ) : ℕ := Nat.ofDigits (2 ^ width) xs.reverse

@[simp] theorem spelled_nil (width : ℕ) : spelled width [] = 0 := rfl

theorem spelled_append (width : ℕ) (xs ys : List ℕ) :
    spelled width (xs ++ ys) = spelled width xs * 2 ^ (width * ys.length) + spelled width ys := by
  rw [spelled, List.reverse_append, Nat.ofDigits_append, List.length_reverse, ← pow_mul, spelled,
    spelled]
  ring

theorem spelled_cons (width x : ℕ) (xs : List ℕ) :
    spelled width (x :: xs) = x * 2 ^ (width * xs.length) + spelled width xs := by
  have h := spelled_append width [x] xs
  rwa [List.singleton_append, show spelled width [x] = x from Nat.ofDigits_singleton] at h

/-- **Symbols are determined by what they spell.** -/
theorem spelled_inj {width : ℕ} (hw : 0 < width) {xs ys : List ℕ}
    (hlen : xs.length = ys.length) (hx : ∀ x ∈ xs, x < 2 ^ width) (hy : ∀ y ∈ ys, y < 2 ^ width)
    (h : spelled width xs = spelled width ys) : xs = ys := by
  refine List.reverse_injective (Nat.ofDigits_inj_of_len_eq (Nat.one_lt_two_pow hw.ne') ?_ ?_ ?_ h)
  · rwa [List.length_reverse, List.length_reverse]
  · exact fun x hx' => hx x (List.mem_reverse.mp hx')
  · exact fun y hy' => hy y (List.mem_reverse.mp hy')

theorem spelled_lt {width : ℕ} (hw : 0 < width) {xs : List ℕ} (h : ∀ x ∈ xs, x < 2 ^ width) :
    spelled width xs < 2 ^ (width * xs.length) := by
  have hlt := Nat.ofDigits_lt_base_pow_length (Nat.one_lt_two_pow hw.ne') (l := xs.reverse)
    fun x hx => h x (List.mem_reverse.mp hx)
  rwa [List.length_reverse, ← pow_mul] at hlt

/-! ## Exclusive or -/

/-- **Exclusive or goes digit by digit.** -/
theorem mul_two_pow_add_xor {k m m' : ℕ} (n n' : ℕ) (hm : m < 2 ^ k) (hm' : m' < 2 ^ k) :
    (n * 2 ^ k + m) ^^^ (n' * 2 ^ k + m') = (n ^^^ n') * 2 ^ k + (m ^^^ m') := by
  refine Nat.eq_of_testBit_eq fun i => ?_
  rw [Nat.testBit_xor, mul_comm n, mul_comm n', mul_comm (n ^^^ n'),
    Nat.testBit_two_pow_mul_add n hm, Nat.testBit_two_pow_mul_add n' hm',
    Nat.testBit_two_pow_mul_add _ (Nat.xor_lt_two_pow hm hm')]
  split_ifs <;> rw [Nat.testBit_xor]

theorem mul_two_pow_add_eq_xor {k m : ℕ} (n : ℕ) (hm : m < 2 ^ k) :
    n * 2 ^ k + m = n * 2 ^ k ^^^ m := by
  have h := mul_two_pow_add_xor n 0 (Nat.two_pow_pos k) hm
  simpa using h.symm

/-- **Lists that differ in the middle** differ by what the middles differ by, shifted into place. -/
theorem spelled_xor_middle {width : ℕ} (hw : 0 < width) (as : List ℕ) {xs ys bs : List ℕ}
    (hlen : xs.length = ys.length) (hx : ∀ x ∈ xs, x < 2 ^ width) (hy : ∀ y ∈ ys, y < 2 ^ width)
    (hb : ∀ b ∈ bs, b < 2 ^ width) :
    spelled width (as ++ xs ++ bs) ^^^ spelled width (as ++ ys ++ bs)
      = (spelled width xs ^^^ spelled width ys) * 2 ^ (width * bs.length) := by
  have hxlt := spelled_lt hw hx
  have hylt := spelled_lt hw hy
  rw [← hlen] at hylt
  rw [spelled_append, spelled_append, spelled_append, spelled_append, ← hlen,
    mul_two_pow_add_xor _ _ (spelled_lt hw hb) (spelled_lt hw hb),
    mul_two_pow_add_xor _ _ hxlt hylt, Nat.xor_self, Nat.xor_self, zero_mul, zero_add, add_zero]

/-! ## The accumulator -/

/-- The bits that are held, and how many they are. -/
structure BitBuffer where
  acc : ℕ
  bits : ℕ
deriving DecidableEq

/-- Take symbols of `width` bits off the top of `bits` bits while there are enough; a round takes at
least one bit, so `bits` rounds are enough. -/
def takeGroups (width acc : ℕ) : ℕ → ℕ → List ℕ × ℕ
  | 0, bits => ([], bits)
  | fuel + 1, bits =>
    if width ≤ bits then
      let (out, rest) := takeGroups width acc fuel (bits - width)
      (((acc >>> (bits - width)) &&& (2 ^ width - 1)) :: out, rest)
    else ([], bits)

/-- One symbol in, into a word of `word` bits: what is complete goes out, the rest is kept. -/
def BitBuffer.feed (word inWidth outWidth : ℕ) (b : BitBuffer) (x : ℕ) : List ℕ × BitBuffer :=
  let acc := (b.acc <<< inWidth) % 2 ^ word ||| x
  let (out, bits) := takeGroups outWidth acc (b.bits + inWidth) (b.bits + inWidth)
  (out, ⟨acc &&& ((1 <<< bits) - 1), bits⟩)

/-- A run of symbols through the accumulator. -/
def regroup (word inWidth outWidth : ℕ) : BitBuffer → List ℕ → List ℕ × BitBuffer
  | b, [] => ([], b)
  | b, x :: xs =>
    let (out, b) := b.feed word inWidth outWidth x
    let (rest, b) := regroup word inWidth outWidth b xs
    (out ++ rest, b)

/-- The accumulator holds less than a symbol. -/
structure BitBuffer.Short (width : ℕ) (b : BitBuffer) : Prop where
  acc : b.acc < 2 ^ b.bits
  bits : b.bits < width

theorem BitBuffer.short_empty {width : ℕ} (hw : 0 < width) : (⟨0, 0⟩ : BitBuffer).Short width :=
  ⟨Nat.one_pos, hw⟩

/-- No bits held is nothing held. -/
theorem BitBuffer.Short.acc_eq_zero {width : ℕ} {b : BitBuffer} (hb : b.Short width)
    (hbits : b.bits = 0) : b.acc = 0 := by
  have hacc := hb.acc
  rw [hbits, pow_zero] at hacc
  omega

/-- **Nothing is lost**: `out` and what `b'` holds spell `n`, a number of `bits` bits. -/
structure Splits (width bits n : ℕ) (out : List ℕ) (b' : BitBuffer) : Prop where
  short : b'.Short width
  symbols : ∀ d ∈ out, d < 2 ^ width
  bits : bits = width * out.length + b'.bits
  value : n = spelled width out * 2 ^ b'.bits + b'.acc

theorem takeGroups_spec {width : ℕ} (hw : 0 < width) (acc : ℕ) :
    ∀ {fuel bits : ℕ}, bits ≤ fuel →
      let (out, rest) := takeGroups width acc fuel bits
      Splits width bits (acc % 2 ^ bits) out ⟨acc % 2 ^ rest, rest⟩ := by
  intro fuel
  induction fuel with
  | zero =>
    intro bits hbits
    obtain rfl := Nat.le_zero.mp hbits
    exact ⟨⟨Nat.mod_lt _ (by simp), hw⟩, by simp, by simp, by simp⟩
  | succ fuel ih =>
    intro bits hbits
    rw [takeGroups]
    split_ifs with henough
    · have htail := ih (show bits - width ≤ fuel by omega)
      generalize takeGroups width acc fuel (bits - width) = r at htail
      obtain ⟨out, rest⟩ := r
      have hdigit : acc >>> (bits - width) &&& (2 ^ width - 1)
          = acc / 2 ^ (bits - width) % 2 ^ width := by
        rw [Nat.and_two_pow_sub_one_eq_mod, Nat.shiftRight_eq_div_pow]
      have hlen : bits - width = width * out.length + rest := htail.bits
      have hvalue : acc % 2 ^ (bits - width) = spelled width out * 2 ^ rest + acc % 2 ^ rest :=
        htail.value
      have hsplit : acc % 2 ^ bits = acc % 2 ^ (bits - width)
          + 2 ^ (bits - width) * (acc / 2 ^ (bits - width) % 2 ^ width) := by
        rw [← Nat.mod_mul, ← pow_add, Nat.sub_add_cancel henough]
      refine ⟨htail.short, List.forall_mem_cons.mpr ⟨?_, htail.symbols⟩, ?_, ?_⟩
      · rw [hdigit]
        exact Nat.mod_lt _ (Nat.two_pow_pos width)
      · show bits = width * (out.length + 1) + rest
        rw [Nat.mul_succ]
        omega
      · show _ = spelled width (_ :: out) * 2 ^ rest + acc % 2 ^ rest
        rw [hsplit, hvalue, hdigit, spelled_cons, hlen, pow_add]
        ring
    · exact ⟨⟨Nat.mod_lt _ (Nat.two_pow_pos bits), not_le.mp henough⟩, by simp, by simp, by simp⟩

/-- The accumulator with a symbol shifted in, before anything goes out. -/
def BitBuffer.load (word inWidth : ℕ) (b : BitBuffer) (x : ℕ) : ℕ :=
  (b.acc <<< inWidth) % 2 ^ word ||| x

theorem BitBuffer.Short.load_lt {inWidth outWidth : ℕ} {b : BitBuffer} (hb : b.Short outWidth)
    {x : ℕ} (hx : x < 2 ^ inWidth) : b.acc * 2 ^ inWidth + x < 2 ^ (b.bits + inWidth) := by
  have hacc := Nat.mul_le_mul_right (2 ^ inWidth) (Nat.succ_le_of_lt hb.acc)
  rw [Nat.succ_mul, ← pow_add] at hacc
  omega

/-- **A symbol shifted in pushes no bit out of the word.** -/
theorem BitBuffer.Short.load_eq {word inWidth outWidth : ℕ} (hword : inWidth + outWidth ≤ word)
    {b : BitBuffer} (hb : b.Short outWidth) {x : ℕ} (hx : x < 2 ^ inWidth) :
    b.load word inWidth x = b.acc * 2 ^ inWidth + x := by
  have hfits := hb.load_lt hx
  have hpow : 2 ^ (b.bits + inWidth) ≤ 2 ^ word :=
    Nat.pow_le_pow_right Nat.two_pos (by have := hb.bits; omega)
  rw [BitBuffer.load, Nat.shiftLeft_eq, Nat.mod_eq_of_lt (by omega), mul_comm,
    Nat.two_pow_add_eq_or_of_lt hx]

theorem BitBuffer.feed_spec {word inWidth outWidth : ℕ} (hout : 0 < outWidth)
    (hword : inWidth + outWidth ≤ word) {b : BitBuffer} (hb : b.Short outWidth) {x : ℕ}
    (hx : x < 2 ^ inWidth) :
    let (out, b') := b.feed word inWidth outWidth x
    Splits outWidth (b.bits + inWidth) (b.acc * 2 ^ inWidth + x) out b' := by
  have hshift : (b.acc <<< inWidth) % 2 ^ word ||| x = b.acc * 2 ^ inWidth + x :=
    hb.load_eq hword hx
  have hgroups := takeGroups_spec hout (b.acc * 2 ^ inWidth + x) (le_refl (b.bits + inWidth))
  rw [BitBuffer.feed, hshift]
  generalize takeGroups outWidth (b.acc * 2 ^ inWidth + x) (b.bits + inWidth)
    (b.bits + inWidth) = r at hgroups
  obtain ⟨out, bits⟩ := r
  dsimp only at hgroups ⊢
  rw [Nat.shiftLeft_eq, one_mul, Nat.and_two_pow_sub_one_eq_mod]
  rwa [Nat.mod_eq_of_lt (hb.load_lt hx)] at hgroups

/-- **A run through the accumulator loses nothing.** -/
theorem regroup_spec {word inWidth outWidth : ℕ} (hout : 0 < outWidth)
    (hword : inWidth + outWidth ≤ word) (xs : List ℕ) :
    ∀ {b : BitBuffer}, b.Short outWidth → (∀ x ∈ xs, x < 2 ^ inWidth) →
      let (out, b') := regroup word inWidth outWidth b xs
      Splits outWidth (b.bits + inWidth * xs.length)
        (b.acc * 2 ^ (inWidth * xs.length) + spelled inWidth xs) out b' := by
  induction xs with
  | nil => exact fun {b} hb _ => ⟨hb, by simp, by simp, by simp⟩
  | cons x xs ih =>
    intro b hb hx
    obtain ⟨hx, hxs⟩ := List.forall_mem_cons.mp hx
    have hfirst := b.feed_spec hout hword hb hx
    rw [regroup]
    generalize b.feed word inWidth outWidth x = r at hfirst
    obtain ⟨out, b'⟩ := r
    have hrest := ih hfirst.short hxs
    dsimp only
    generalize regroup word inWidth outWidth b' xs = r at hrest
    obtain ⟨rest, b''⟩ := r
    refine ⟨hrest.short, List.forall_mem_append.mpr ⟨hfirst.symbols, hrest.symbols⟩, ?_, ?_⟩
    · have hbits := hfirst.bits
      have hbits' : b'.bits + inWidth * xs.length = outWidth * rest.length + b''.bits := hrest.bits
      show b.bits + inWidth * (xs.length + 1) = outWidth * (out ++ rest).length + b''.bits
      rw [List.length_append, Nat.mul_succ, Nat.mul_add]
      omega
    · have hbits : b'.bits + inWidth * xs.length = outWidth * rest.length + b''.bits := hrest.bits
      calc b.acc * 2 ^ (inWidth * (x :: xs).length) + spelled inWidth (x :: xs)
          = (b.acc * 2 ^ inWidth + x) * 2 ^ (inWidth * xs.length) + spelled inWidth xs := by
            rw [spelled_cons, List.length_cons, Nat.mul_succ, pow_add]
            ring
        _ = spelled outWidth out * 2 ^ (b'.bits + inWidth * xs.length)
              + (b'.acc * 2 ^ (inWidth * xs.length) + spelled inWidth xs) := by
            rw [hfirst.value, pow_add]
            ring
        _ = spelled outWidth (out ++ rest) * 2 ^ b''.bits + b''.acc := by
            rw [hrest.value, hbits, spelled_append, pow_add]
            ring

/-- **When the widths come out even**, nothing is held back at the end. -/
theorem regroup_even {word inWidth outWidth n : ℕ} (hout : 0 < outWidth)
    (hword : inWidth + outWidth ≤ word) {xs : List ℕ} (hx : ∀ x ∈ xs, x < 2 ^ inWidth)
    (hlen : inWidth * xs.length = outWidth * n) :
    ∃ out, regroup word inWidth outWidth ⟨0, 0⟩ xs = (out, ⟨0, 0⟩) ∧ out.length = n ∧
      (∀ d ∈ out, d < 2 ^ outWidth) ∧ spelled outWidth out = spelled inWidth xs := by
  have hspec := regroup_spec hout hword xs (BitBuffer.short_empty hout) hx
  generalize regroup word inWidth outWidth ⟨0, 0⟩ xs = r at hspec
  obtain ⟨out, b⟩ := r
  have hbits : 0 + inWidth * xs.length = outWidth * out.length + b.bits := hspec.bits
  have hshort := hspec.short.bits
  -- the bits left over are fewer than a symbol, and a multiple of one
  have hzero : b.bits = 0 := by
    have hdvd : outWidth ∣ b.bits :=
      (Nat.dvd_add_right (Dvd.intro _ rfl)).mp ⟨n, by rw [← hbits, zero_add, hlen]⟩
    exact Nat.eq_zero_of_dvd_of_lt hdvd hshort
  have hacc : b.acc = 0 := hspec.short.acc_eq_zero hzero
  have hcount : outWidth * out.length = outWidth * n := by omega
  obtain ⟨acc, bits⟩ := b
  obtain rfl : bits = 0 := hzero
  obtain rfl : acc = 0 := hacc
  refine ⟨out, rfl, Nat.eq_of_mul_eq_mul_left hout hcount, hspec.symbols, ?_⟩
  have hvalue : 0 * 2 ^ (inWidth * xs.length) + spelled inWidth xs
      = spelled outWidth out * 2 ^ 0 + 0 := hspec.value
  rw [zero_mul, zero_add, pow_zero, mul_one, add_zero] at hvalue
  exact hvalue.symm

/-- **Regrouping back gives the symbols back**; both spell the same number. -/
theorem regroup_regroup {word inWidth outWidth n : ℕ} (hin : 0 < inWidth) (hout : 0 < outWidth)
    (hword : inWidth + outWidth ≤ word) {xs : List ℕ} (hx : ∀ x ∈ xs, x < 2 ^ inWidth)
    (hlen : inWidth * xs.length = outWidth * n) :
    ∃ out, regroup word inWidth outWidth ⟨0, 0⟩ xs = (out, ⟨0, 0⟩) ∧ out.length = n ∧
      (∀ d ∈ out, d < 2 ^ outWidth) ∧ spelled outWidth out = spelled inWidth xs ∧
      regroup word outWidth inWidth ⟨0, 0⟩ out = (xs, ⟨0, 0⟩) := by
  obtain ⟨out, hrun, hlen', hsymbols, hspelled⟩ := regroup_even hout hword hx hlen
  obtain ⟨back, hback, hlen'', hsymbols', hspelled'⟩ :=
    regroup_even (n := xs.length) hin (by omega : outWidth + inWidth ≤ word) hsymbols
      (by rw [hlen', hlen])
  obtain rfl : back = xs := spelled_inj hin hlen'' hsymbols' hx (hspelled'.trans hspelled)
  exact ⟨out, hrun, hlen', hsymbols, hspelled, hback⟩

/-! ## A padded last symbol -/

/-- What is held, padded to a symbol, is one. -/
theorem BitBuffer.Short.pad_lt {width : ℕ} {b : BitBuffer} (hb : b.Short width) :
    b.acc * 2 ^ (width - b.bits) < 2 ^ width := by
  have hpow : 2 ^ b.bits * 2 ^ (width - b.bits) = 2 ^ width := by
    rw [← pow_add, Nat.add_sub_cancel' hb.bits.le]
  rw [← hpow]
  exact Nat.mul_lt_mul_of_pos_right hb.acc (Nat.two_pow_pos _)

/-- The bits left at the end, as one symbol with zeros below them. -/
def BitBuffer.flush (width : ℕ) (b : BitBuffer) : List ℕ :=
  if 0 < b.bits then [b.acc * 2 ^ (width - b.bits)] else []

/-- **Flushing pads**: what is spelled then is the number that went in, shifted by fewer bits than a
symbol has. -/
theorem Splits.flush {width bits n : ℕ} {out : List ℕ} {b : BitBuffer}
    (h : Splits width bits n out b) :
    (∀ d ∈ out ++ b.flush width, d < 2 ^ width) ∧
      ∃ pad < width, width * (out ++ b.flush width).length = bits + pad ∧
        spelled width (out ++ b.flush width) = n * 2 ^ pad := by
  have hbits := h.bits
  have hshort := h.short.bits
  rw [BitBuffer.flush]
  split_ifs with hleft
  · have hpow : 2 ^ b.bits * 2 ^ (width - b.bits) = 2 ^ width := by
      rw [← pow_add, Nat.add_sub_cancel' hshort.le]
    have hpadded : ∀ d ∈ [b.acc * 2 ^ (width - b.bits)], d < 2 ^ width :=
      List.forall_mem_singleton.mpr h.short.pad_lt
    refine ⟨List.forall_mem_append.mpr ⟨h.symbols, hpadded⟩, width - b.bits, by omega, ?_, ?_⟩
    · rw [List.length_append, List.length_singleton, Nat.mul_add]
      omega
    · rw [spelled_append, h.value, List.length_singleton, mul_one, ← hpow, spelled_cons]
      simp only [List.length_nil, mul_zero, pow_zero, mul_one, spelled_nil, add_zero]
      ring
  · have hzero : b.bits = 0 := by omega
    have hacc := h.short.acc_eq_zero hzero
    rw [List.append_nil]
    refine ⟨h.symbols, 0, by omega, by omega, ?_⟩
    rw [h.value, hzero, hacc, add_zero, pow_zero, mul_one, mul_one]

/-- **Regrouping back what was padded gives the symbols back**, when the padding is too short to be
taken for one. -/
theorem regroup_regroup_padded {word inWidth outWidth : ℕ} (hout : 0 < outWidth)
    (hle : outWidth ≤ inWidth) (hword : inWidth + outWidth ≤ word) {xs : List ℕ}
    (hx : ∀ x ∈ xs, x < 2 ^ inWidth) :
    ∃ out : List ℕ,
      (regroup word inWidth outWidth ⟨0, 0⟩ xs).1
          ++ (regroup word inWidth outWidth ⟨0, 0⟩ xs).2.flush outWidth = out ∧
        (∃ pad < outWidth, outWidth * out.length = inWidth * xs.length + pad) ∧
        (∀ d ∈ out, d < 2 ^ outWidth) ∧
        (regroup word outWidth inWidth ⟨0, 0⟩ out).1 = xs := by
  have hin : 0 < inWidth := by omega
  have hthere := regroup_spec hout hword xs (BitBuffer.short_empty hout) hx
  generalize regroup word inWidth outWidth ⟨0, 0⟩ xs = r at hthere ⊢
  obtain ⟨symbols, held⟩ := r
  obtain ⟨hsymbols, pad, hpad, hlen, hspelled⟩ := Splits.flush hthere
  generalize symbols ++ held.flush outWidth = out at hsymbols hlen hspelled ⊢
  rw [zero_mul, zero_add] at hspelled
  rw [zero_add] at hlen
  refine ⟨out, rfl, ⟨pad, hpad, hlen⟩, hsymbols, ?_⟩
  have hback := regroup_spec hin (by omega : outWidth + inWidth ≤ word) out
    (BitBuffer.short_empty hin) hsymbols
  generalize regroup word outWidth inWidth ⟨0, 0⟩ out = r at hback ⊢
  obtain ⟨back, rest⟩ := r
  have hbits : 0 + outWidth * out.length = inWidth * back.length + rest.bits := hback.bits
  have hshort : rest.bits < inWidth := hback.short.bits
  -- both leftovers are shorter than a symbol, so the lengths agree and the padding is what is left
  have hcount : back.length = xs.length := by
    have hmod : inWidth * back.length + rest.bits = inWidth * xs.length + pad := by omega
    have hdiv := congrArg (· / inWidth) hmod
    simp only [Nat.mul_add_div hin, Nat.div_eq_of_lt hshort,
      Nat.div_eq_of_lt (hpad.trans_le hle), add_zero] at hdiv
    exact hdiv
  have hrest : rest.bits = pad := by
    rw [hcount] at hbits
    omega
  have hvalue : 0 * 2 ^ (outWidth * out.length) + spelled outWidth out
      = spelled inWidth back * 2 ^ rest.bits + rest.acc := hback.value
  have hacc : rest.acc < 2 ^ pad := hrest ▸ hback.short.acc
  rw [zero_mul, zero_add, hspelled, hrest] at hvalue
  have heq : spelled inWidth back = spelled inWidth xs := by
    have hdiv := congrArg (· / 2 ^ pad) hvalue
    simp only [mul_comm _ (2 ^ pad), Nat.mul_add_div (Nat.two_pow_pos pad), Nat.div_eq_of_lt hacc,
      add_zero] at hdiv
    rw [Nat.mul_div_cancel_left _ (Nat.two_pow_pos pad)] at hdiv
    exact hdiv.symm
  exact spelled_inj hin hcount hback.symbols hx heq

end Machinery
