import FleetPosture.Proofs.Text.Numeral
import FleetPosture.Proofs.Text.Pieces
import FleetPosture.Uuid

/-! Reading the text of an identifier gives the identifier back. -/

namespace FleetPosture.Uuid

theorem digitsFrom?_places (k n : Nat) :
    Text.digitsFrom? 16 0 ((List.range k).map fun i =>
      Nat.digitChar (n / Nat.pow 16 (k - 1 - i) % 16)) = some (n % Nat.pow 16 k) := by
  induction k generalizing n with
  | zero => simp [Text.digitsFrom?, Nat.mod_one]
  | succ k ih =>
    have shifted : ((List.range k).map fun i => Nat.digitChar (n / Nat.pow 16 (k + 1 - 1 - i) % 16)) =
        (List.range k).map fun i => Nat.digitChar (n / 16 / Nat.pow 16 (k - 1 - i) % 16) := by
      apply List.map_congr_left
      intro i hi
      have place : k + 1 - 1 - i = k - 1 - i + 1 := by
        have := List.mem_range.1 hi
        omega
      rw [place, Nat.div_div_eq_div_mul, Nat.mul_comm]
      rfl
    have last : n / Nat.pow 16 (k + 1 - 1 - k) = n := by
      rw [Nat.add_sub_cancel, Nat.sub_self]
      exact Nat.div_one n
    have next : Nat.pow 16 (k + 1) = 16 * Nat.pow 16 k := Nat.mul_comm _ _
    rw [List.range_succ, List.map_append, Text.digitsFrom?_append, shifted, ih, Option.bind_some,
      List.map_singleton, last, Text.digitsFrom?_digitChar (Nat.mod_lt n (by decide)) (by decide),
      next, Nat.mod_mul, Nat.mul_comm, Nat.add_comm]

variable (u : Uuid)

theorem length_digitChars : u.digitChars.length = 32 := by simp [digitChars]

theorem digits?_digitChars : Text.digits? 16 u.digitChars = some u.value.toNat := by
  have nonempty : ¬ u.digitChars.isEmpty := by
    rw [List.isEmpty_iff_length_eq_zero, length_digitChars]
    decide
  have bounded : u.value.toNat < Nat.pow 16 32 := Nat.lt_of_lt_of_eq u.value.isLt (by decide)
  rw [Text.digits?, if_neg nonempty]
  refine (digitsFrom?_places 32 u.value.toNat).trans ?_
  rw [Nat.mod_eq_of_lt bounded]

theorem digitChar_hex {d : Nat} (h : d < 16) :
    isHexDigit (Nat.digitChar d) = true ∧ (Nat.digitChar d == '-') = false := by
  have digits : ∀ d < 16, isHexDigit (Nat.digitChar d) = true ∧ (Nat.digitChar d == '-') = false := by
    decide
  exact digits d h

theorem hex_of_mem_digitChars {c : Char} (h : c ∈ u.digitChars) :
    isHexDigit c = true ∧ (c == '-') = false := by
  obtain ⟨i, -, rfl⟩ := List.mem_map.1 h
  exact digitChar_hex (Nat.mod_lt _ (by decide))

theorem ofDigits?_digitChars : ofDigits? u.digitChars = some u := by
  have hex : u.digitChars.all isHexDigit :=
    List.all_eq_true.2 fun c hc => (u.hex_of_mem_digitChars hc).1
  rw [ofDigits?, if_pos ⟨u.length_digitChars, hex⟩, digits?_digitChars, Option.map_some,
    BitVec.ofNat_toNat, BitVec.setWidth_eq]

theorem pieces_text : Text.pieces (· == '-') u.text.toList =
    [u.digitChars.take 8, (u.digitChars.drop 8).take 4, (u.digitChars.drop 12).take 4,
      (u.digitChars.drop 16).take 4, u.digitChars.drop 20] := by
  have plain (l : List Char) (h : ∀ c ∈ l, c ∈ u.digitChars) : ∀ c ∈ l, (c == '-') = false :=
    fun c hc => (u.hex_of_mem_digitChars (h c hc)).2
  have dropped (m n : Nat) : ∀ c ∈ (u.digitChars.drop m).take n, c ∈ u.digitChars :=
    fun c hc => List.mem_of_mem_drop (List.mem_of_mem_take hc)
  rw [text, String.toList_ofList]
  simp only [List.append_assoc, List.cons_append]
  rw [Text.pieces_append (plain _ fun c hc => List.mem_of_mem_take hc) (by decide),
    Text.pieces_append (plain _ (dropped 8 4)) (by decide),
    Text.pieces_append (plain _ (dropped 12 4)) (by decide),
    Text.pieces_append (plain _ (dropped 16 4)) (by decide),
    Text.pieces_of_forall_not (plain _ fun c hc => List.mem_of_mem_drop hc)]

theorem take_drop_append_drop {α : Type} (l : List α) (m n : Nat) :
    (l.drop m).take n ++ l.drop (m + n) = l.drop m := by
  rw [← List.drop_drop, List.take_append_drop]

theorem parse?_text : parse? u.text = some u := by
  have length : u.text.toList.length = 36 := by
    simp [text, length_digitChars]
  have whole : [u.digitChars.take 8, (u.digitChars.drop 8).take 4, (u.digitChars.drop 12).take 4,
      (u.digitChars.drop 16).take 4, u.digitChars.drop 20].flatten = u.digitChars := by
    simp only [List.flatten_cons, List.flatten_nil, List.append_nil]
    rw [take_drop_append_drop _ 16 4, take_drop_append_drop _ 12 4, take_drop_append_drop _ 8 4,
      List.take_append_drop]
  rw [parse?, parseChars?, length]
  rw [if_neg (by decide), if_neg (by simp), if_neg (by simp), ofGroups?, pieces_text]
  simp only [whole, ofDigits?_digitChars]
  simp [length_digitChars]

end FleetPosture.Uuid
