import FleetPosture.Net.Network

/-! Networks bit by bit. An address is in a network if its first bits are those of the network, and
the addresses that lead to no other host are those of six networks. -/

namespace FleetPosture.Net

section Bits

variable {w k : Nat}

theorem testBit_firstBits (hk : k ≤ w) (a : BitVec w) {i : Nat} (hi : i < k) :
    (Network.firstBits w k a.toNat).testBit (k - 1 - i) = a.getMsbD i := by
  have place : k - 1 - i + (w - k) = w - 1 - i := by omega
  have inside : decide (i < w) = true := decide_eq_true (by omega)
  rw [Network.firstBits, Nat.pow_eq, Nat.testBit_div_two_pow, place, BitVec.getMsbD_eq_getLsbD,
    inside, Bool.true_and, BitVec.testBit_toNat]

theorem firstBits_lt (hk : k ≤ w) (a : BitVec w) : Network.firstBits w k a.toNat < Nat.pow 2 k := by
  have size : 2 ^ (w - k) * 2 ^ k = 2 ^ w := by rw [← Nat.pow_add, Nat.sub_add_cancel hk]
  refine Nat.div_lt_of_lt_mul ?_
  rw [Nat.pow_eq, Nat.pow_eq, size]
  exact a.isLt

theorem firstBits_eq_iff (hk : k ≤ w) (a b : BitVec w) :
    Network.firstBits w k a.toNat = Network.firstBits w k b.toNat ↔
      ∀ i < k, a.getMsbD i = b.getMsbD i := by
  constructor
  · intro same i hi
    rw [← testBit_firstBits hk a hi, ← testBit_firstBits hk b hi, same]
  · intro agree
    refine Nat.eq_of_testBit_eq fun j => ?_
    by_cases hj : j < k
    · have place : k - 1 - (k - 1 - j) = j := by omega
      have hi : k - 1 - j < k := by omega
      have bit := agree _ hi
      rwa [← testBit_firstBits hk a hi, ← testBit_firstBits hk b hi, place] at bit
    · have small : 2 ^ k ≤ 2 ^ j := Nat.pow_le_pow_right (by decide) (Nat.le_of_not_lt hj)
      rw [Nat.testBit_lt_two_pow (Nat.lt_of_lt_of_le (firstBits_lt hk a) small),
        Nat.testBit_lt_two_pow (Nat.lt_of_lt_of_le (firstBits_lt hk b) small)]

theorem bits_eq_firstBits (hk : k ≤ w) (a : BitVec w) :
    Address.bits a.toNat (w - k) k = Network.firstBits w k a.toNat :=
  Nat.mod_eq_of_lt (firstBits_lt hk a)

end Bits

/-- The address is of the network's version and has the network's first bits. -/
def Network.Agrees : Network → Address → Prop
  | v4 n length, .v4 a => ∀ i < length.val, n.getMsbD i = a.getMsbD i
  | v6 n length, .v6 a => ∀ i < length.val, n.getMsbD i = a.getMsbD i
  | _, _ => False

theorem Network.has_iff {n : Network} {a : Address} : n.has a ↔ n.Agrees a := by
  cases n <;> cases a
  case v4.v4 n length a =>
    rw [has, beq_iff_eq, firstBits_eq_iff (Nat.le_of_lt_succ length.isLt)]
    rfl
  case v6.v6 n length a =>
    rw [has, beq_iff_eq, firstBits_eq_iff (Nat.le_of_lt_succ length.isLt)]
    rfl
  all_goals exact ⟨fun h => absurd h Bool.false_ne_true, False.elim⟩

namespace Address

def unroutable : List Network :=
  [.v4 0x7f000000#32 8, .v6 1#128 128, .v4 0#32 32, .v6 0#128 128, .v4 0xa9fe0000#32 16,
    .v6 (0xfe80#128 <<< 112) 10]

example : unroutable.map some = ["127.0.0.0/8", "::1/128", "0.0.0.0/32", "::/128",
    "169.254.0.0/16", "fe80::/10"].map Network.parse? := by
  decide +kernel

def loopback : List Network := [.v4 0x7f000000#32 8, .v6 1#128 128]

section Classes

variable {w k : Nat}

theorem bits_beq_eq (hk : k ≤ w) (n a : BitVec w) :
    (bits a.toNat (w - k) k == Network.firstBits w k n.toNat) =
      (Network.firstBits w k n.toNat == Network.firstBits w k a.toNat) := by
  rw [bits_eq_firstBits hk, Bool.beq_comm]

theorem toNat_beq_eq (n a : BitVec w) :
    (a.toNat == n.toNat) = (Network.firstBits w w n.toNat == Network.firstBits w w a.toNat) := by
  have whole (v : BitVec w) : Network.firstBits w w v.toNat = v.toNat := by
    rw [Network.firstBits, Nat.sub_self]
    exact Nat.div_one _
  rw [whole, whole, Bool.beq_comm]

theorem isLoopback_eq (a : Address) : a.isLoopback =
    (Network.has (.v4 0x7f000000#32 8) a || Network.has (.v6 1#128 128) a) := by
  cases a with
  | v4 v => exact (bits_beq_eq (k := 8) (by decide) 0x7f000000#32 v).trans (Bool.or_false _).symm
  | v6 v => exact toNat_beq_eq 1#128 v

theorem isUnspecified_eq (a : Address) : a.isUnspecified =
    (Network.has (.v4 0#32 32) a || Network.has (.v6 0#128 128) a) := by
  cases a with
  | v4 v => exact (toNat_beq_eq 0#32 v).trans (Bool.or_false _).symm
  | v6 v => exact toNat_beq_eq 0#128 v

theorem isLinkLocal_eq (a : Address) : a.isLinkLocal =
    (Network.has (.v4 0xa9fe0000#32 16) a || Network.has (.v6 (0xfe80#128 <<< 112) 10) a) := by
  cases a with
  | v4 v => exact (bits_beq_eq (k := 16) (by decide) 0xa9fe0000#32 v).trans (Bool.or_false _).symm
  | v6 v => exact bits_beq_eq (k := 10) (by decide) (0xfe80#128 <<< 112) v

end Classes

theorem isLoopback_iff {a : Address} : a.isLoopback ↔ ∃ n ∈ loopback, n.Agrees a := by
  simp [loopback, ← Network.has_iff, isLoopback_eq]

theorem isRoutable_iff {a : Address} : a.isRoutable ↔ ∀ n ∈ unroutable, ¬ n.Agrees a := by
  simp only [unroutable, List.forall_mem_cons, List.not_mem_nil, false_imp_iff, implies_true,
    and_true, ← Network.has_iff, isRoutable, isLoopback_eq, isUnspecified_eq, isLinkLocal_eq,
    Bool.and_eq_true, Bool.not_eq_true', Bool.or_eq_false_iff, Bool.not_eq_true, and_assoc]

end Address
end FleetPosture.Net
