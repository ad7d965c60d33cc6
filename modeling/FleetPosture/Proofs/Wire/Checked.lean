import FleetPosture.Proofs.Wire.Fields

/-! Bytes as a machine reads them, by position. Positions and lengths are words of 64 bits; a
position, a range, a difference or a sum out of bounds breaks a computation off, and so does a loop
that has not ended after the rounds it is given. -/

namespace FleetPosture

open Text (Bytes)

inductive Breach
  | position (i length : Nat)
  | range (first last length : Nat)
  | difference (a b : Nat)
  | sum (a b : Nat)
  | rounds

abbrev Checked := Except Breach

namespace Checked

def wordLimit : Nat := 2 ^ 64

def sum (a b : Nat) : Checked Nat := if a + b < wordLimit then .ok (a + b) else .error (.sum a b)

def difference (a b : Nat) : Checked Nat := if b ≤ a then .ok (a - b) else .error (.difference a b)

def byteAt (bs : Bytes) (i : Nat) : Checked UInt8 :=
  match bs[i]? with
  | some b => .ok b
  | none => .error (.position i bs.length)

def between? (bs : Bytes) (first last : Nat) : Option Bytes :=
  if first ≤ last ∧ last ≤ bs.length then some ((bs.take last).drop first) else none

def slice (bs : Bytes) (first last : Nat) : Checked Bytes :=
  match between? bs first last with
  | some part => .ok part
  | none => .error (.range first last bs.length)

def number16 (bs : Bytes) : Checked Nat := do
  .ok (Wire.number [← byteAt bs 0, ← byteAt bs 1])

def number24 (bs : Bytes) : Checked Nat := do
  .ok (Wire.number [← byteAt bs 0, ← byteAt bs 1, ← byteAt bs 2])

def loop {σ α : Type} (turn : σ → Checked (σ ⊕ α)) : Nat → σ → Checked α
  | 0, _ => .error .rounds
  | rounds + 1, s => do
    match ← turn s with
    | .inl s => loop turn rounds s
    | .inr a => .ok a

theorem ok_bind {ε α β : Type} (a : α) (f : α → Except ε β) : (Except.ok a >>= f) = f a := rfl

theorem sum_of_small {a b : Nat} (h : a + b < 2 ^ 33) : sum a b = .ok (a + b) :=
  if_pos (Nat.lt_trans h (by decide))

theorem difference_of_le {a b : Nat} (h : b ≤ a) : difference a b = .ok (a - b) := if_pos h

theorem slice_of_le {bs : Bytes} {first last : Nat} (h : first ≤ last) (h' : last ≤ bs.length) :
    slice bs first last = .ok ((bs.take last).drop first) := by
  rw [slice, between?, if_pos ⟨h, h'⟩]

theorem slice_middle (a b c : Bytes) :
    slice (a ++ (b ++ c)) a.length (a.length + b.length) = .ok b := by
  rw [slice_of_le (Nat.le_add_right _ _) (by simp), List.take_length_add_append, List.take_left',
    List.drop_left]
  rfl

theorem slice_end (a b : Bytes) {first : Nat} (h : first = a.length) :
    slice (a ++ b) first (a ++ b).length = .ok b := by
  rw [h, slice_of_le (by simp) (Nat.le_refl _), List.take_length, List.drop_left]

theorem number16_of_length (bs : Bytes) (h : bs.length = 2) : number16 bs = .ok (Wire.number bs) := by
  obtain ⟨a, b, rfl⟩ := List.length_eq_two.1 h
  rfl

theorem number24_of_length (bs : Bytes) (h : bs.length = 3) : number24 bs = .ok (Wire.number bs) := by
  obtain ⟨a, b, c, rfl⟩ := List.length_eq_three.1 h
  rfl

theorem between?_eq_take? (bs : Bytes) (first : Nat) {n : Nat} (h : first ≤ bs.length ∨ 0 < n) :
    between? bs first (first + n) = (Wire.take? n (bs.drop first)).map (·.1) := by
  unfold between? Wire.take?
  rw [List.length_drop]
  by_cases fits : first + n ≤ bs.length
  · rw [if_pos ⟨Nat.le_add_right first n, fits⟩, if_pos (by omega), List.drop_take]
    simp
  · rw [if_neg fun e => fits e.2, if_neg (by omega)]
    rfl

theorem drop_of_take? (bs : Bytes) (first : Nat) {a rest : Bytes} {n : Nat}
    (h : Wire.take? n (bs.drop first) = some (a, rest)) :
    bs.drop (first + n) = rest ∧ a.length = n := by
  obtain ⟨split, length⟩ := Wire.eq_append_of_take? h
  exact ⟨by rw [← List.drop_drop, split, ← length, List.drop_left], length⟩

/-- A loop ends with what its result is said to be if each turn either ends with it or leaves it as
it is and makes the state smaller by at least `d`. -/
theorem loop_eq {σ α : Type} {turn : σ → Checked (σ ⊕ α)} (result : σ → α) (size : σ → Nat) {d : Nat}
    (h : ∀ s, turn s = .ok (.inr (result s)) ∨
      ∃ s', turn s = .ok (.inl s') ∧ result s' = result s ∧ size s' + d ≤ size s)
    {rounds : Nat} {s : σ} (enough : size s < rounds * d) :
    loop turn rounds s = .ok (result s) := by
  induction rounds generalizing s with
  | zero => omega
  | succ rounds ih =>
    rcases h s with ended | ⟨s', step, same, smaller⟩
    · rw [loop, ended]
      rfl
    · rw [loop, step, ← same]
      exact ih (by rw [Nat.succ_mul] at enough; omega)

end Checked

end FleetPosture
