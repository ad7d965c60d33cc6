import FleetPosture.Net.Address

/-!
Networks: the addresses that agree with a given one in its first bits. A network is written as the
address, a slash and the number of bits; the address may have other bits set.
-/

namespace FleetPosture.Net

inductive Network
  | v4 (address : BitVec 32) (length : Fin 33)
  | v6 (address : BitVec 128) (length : Fin 129)
deriving DecidableEq, Repr

namespace Network

def length? (width bound : Nat) (s : List Char) : Option (Fin bound) := do
  if width < s.length then none
  let n ← Text.digits? 10 s
  if h : n < bound then some ⟨n, h⟩ else none

def ofChars? (s : List Char) : Option Network := do
  let (address, length) ← Text.cutLast? '/' s
  match Address.ofText4? Address.lenient address with
  | some a => (length? 2 33 length).map (v4 a)
  | none => do
    let a ← Address.ofText6? Address.lenient address
    (length? 3 129 length).map (v6 a)

def parse? (s : String) : Option Network := ofChars? s.toList

def firstBits (size length value : Nat) : Nat := value / Nat.pow 2 (size - length)

/-- Whether an address is of the network's version and agrees with it in the first bits. -/
def has : Network → Address → Bool
  | v4 n length, .v4 a => firstBits 32 length n.toNat == firstBits 32 length a.toNat
  | v6 n length, .v6 a => firstBits 128 length n.toNat == firstBits 128 length a.toNat
  | _, _ => false

end Network
end FleetPosture.Net
