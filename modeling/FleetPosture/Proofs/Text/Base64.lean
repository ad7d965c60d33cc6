import FleetPosture.Proofs.Text.Words
import FleetPosture.Text.Base64

/-! Reading undoes writing for base64, and what is written is one unbroken run of characters. -/

namespace FleetPosture.Text

theorem base64Value?_base64Digit : ∀ n < 64, base64Value? (base64Digit n) = some n := by
  decide

theorem base64Digit_ne_pad : ∀ n < 64, base64Digit n ≠ '=' := by
  decide

theorem isBlank_base64Digit (n : Nat) : isBlank (base64Digit n) = false := by
  have alphanumeric : ∀ n < 62, isBlank (base64Digit n) = false := by decide
  by_cases h : n < 62
  · exact alphanumeric n h
  · rw [base64Digit, if_neg (by omega), if_neg (by omega), if_neg h]
    split <;> rfl

section Quantum

variable {w x y z : Nat}

theorem base64Decode_two (hw : w < 64) (hx : x < 64) (whole : (w * 64 + x) % 16 = 0) :
    base64Decode [base64Digit w, base64Digit x, '=', '='] =
      some [UInt8.ofNat ((w * 64 + x) / 16)] := by
  rw [base64Decode, base64Value?_base64Digit w hw, base64Value?_base64Digit x hx]
  exact if_pos whole

theorem base64Decode_three (hw : w < 64) (hx : x < 64) (hy : y < 64)
    (whole : ((w * 64 + x) * 64 + y) % 4 = 0) :
    base64Decode [base64Digit w, base64Digit x, base64Digit y, '='] =
      some [UInt8.ofNat (((w * 64 + x) * 64 + y) / 1024), UInt8.ofNat (((w * 64 + x) * 64 + y) / 4)] := by
  rw [base64Decode, base64Value?_base64Digit w hw, base64Value?_base64Digit x hx,
    base64Value?_base64Digit y hy]
  · exact if_pos whole
  · exact base64Digit_ne_pad y hy

theorem base64Decode_four (hw : w < 64) (hx : x < 64) (hy : y < 64) (hz : z < 64) (rest : List Char) :
    base64Decode (base64Digit w :: base64Digit x :: base64Digit y :: base64Digit z :: rest) =
      (base64Decode rest).map fun bs =>
        UInt8.ofNat ((((w * 64 + x) * 64 + y) * 64 + z) / 65536) ::
          UInt8.ofNat ((((w * 64 + x) * 64 + y) * 64 + z) / 256) ::
          UInt8.ofNat (((w * 64 + x) * 64 + y) * 64 + z) :: bs := by
  rw [base64Decode, base64Value?_base64Digit w hw, base64Value?_base64Digit x hx,
    base64Value?_base64Digit y hy, base64Value?_base64Digit z hz]
  · exact Option.map_eq_bind.symm
  · exact fun pad => absurd pad (base64Digit_ne_pad y hy)
  · exact fun pad => absurd pad (base64Digit_ne_pad z hz)

end Quantum

theorem base64Decode_base64Chars (bs : Bytes) : base64Decode (base64Chars bs) = some bs := by
  have byte {n : Nat} {b : UInt8} (h : n % 256 = b.toNat) : UInt8.ofNat n = b := by
    rw [← UInt8.toNat_inj, UInt8.toNat_ofNat']
    exact h
  fun_induction base64Chars bs with
  | case1 => rfl
  | case2 a n =>
    have ha := a.toNat_lt
    have whole : n / 64 * 64 + n % 64 = n := Nat.div_add_mod' n 64
    rw [base64Decode_two (by omega) (by omega) (by omega), whole, byte (b := a) (by omega)]
  | case3 a b n =>
    have ha := a.toNat_lt
    have hb := b.toNat_lt
    have whole : (n / 4096 * 64 + n / 64 % 64) * 64 + n % 64 = n := by omega
    rw [base64Decode_three (by omega) (by omega) (by omega) (by omega), whole,
      byte (b := a) (by omega), byte (b := b) (by omega)]
  | case4 a b c r n ih =>
    have ha := a.toNat_lt
    have hb := b.toNat_lt
    have hc := c.toNat_lt
    have whole : ((n / 262144 * 64 + n / 4096 % 64) * 64 + n / 64 % 64) * 64 + n % 64 = n := by omega
    rw [base64Decode_four (by omega) (by omega) (by omega) (by omega), whole, ih,
      byte (b := a) (by omega), byte (b := b) (by omega), byte (b := c) (by omega)]
    rfl

theorem unbroken_base64Chars (bs : Bytes) : Unbroken (base64Chars bs) := by
  have pad : isBlank '=' = false := rfl
  fun_induction base64Chars bs with
  | case1 => exact unbroken_nil
  | case2 => simp only [unbroken_cons, isBlank_base64Digit, pad, unbroken_nil, and_self]
  | case3 => simp only [unbroken_cons, isBlank_base64Digit, pad, unbroken_nil, and_self]
  | case4 _ _ _ _ _ ih => simpa only [unbroken_cons, isBlank_base64Digit, true_and] using ih

end FleetPosture.Text
