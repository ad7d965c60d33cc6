import FleetPosture.Text.Utf8

/-!
Numbers and lengths in binary formats. Numbers stand highest byte first; a field is its length in a
fixed number of bytes and then its content.
-/

namespace FleetPosture.Wire

open Text (Bytes)

def bigEndian : Nat → Nat → Bytes
  | 0, _ => []
  | width + 1, n => UInt8.ofNat (n / Nat.pow 256 width) :: bigEndian width n

def number (bs : Bytes) : Nat := bs.foldl (fun n b => n * 256 + b.toNat) 0

def take? (n : Nat) (bs : Bytes) : Option (Bytes × Bytes) :=
  if n ≤ bs.length then some (bs.take n, bs.drop n) else none

def field (width : Nat) (content : Bytes) : Bytes := bigEndian width content.length ++ content

def field? (width : Nat) (bs : Bytes) : Option (Bytes × Bytes) := do
  let (length, rest) ← take? width bs
  take? (number length) rest

theorem length_bigEndian (width n : Nat) : (bigEndian width n).length = width := by
  induction width with
  | zero => rfl
  | succ width ih => simp [bigEndian, ih]

theorem take?_append (a b : Bytes) : take? a.length (a ++ b) = some (a, b) := by simp [take?]

theorem eq_append_of_take? {n : Nat} {bs a b : Bytes} (h : take? n bs = some (a, b)) :
    bs = a ++ b ∧ a.length = n := by
  unfold take? at h
  split at h
  · obtain ⟨rfl, rfl⟩ := Prod.mk.inj (Option.some.inj h)
    exact ⟨(List.take_append_drop n bs).symm, by simp; omega⟩
  · exact absurd h (by simp)

end FleetPosture.Wire
