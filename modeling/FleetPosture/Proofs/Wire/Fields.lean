import FleetPosture.Wire
import Mathlib.Algebra.Group.Nat.Defs
import Mathlib.Data.List.Basic
import Mathlib.Data.List.Induction

/-! Reading undoes writing for numbers of a fixed width and for fields, whatever follows them. -/

namespace FleetPosture.Wire

open Text (Bytes)

variable {width n : Nat} {content rest : Bytes}

theorem take?_eq_none_iff {n : Nat} {bs : Bytes} : take? n bs = none ↔ bs.length < n := by
  simp [take?]

theorem take?_append_of_length {a : Bytes} (h : a.length = n) (b : Bytes) :
    take? n (a ++ b) = some (a, b) := by
  rw [← h, take?_append]

theorem exists_four {bs : Bytes} (h : ¬ bs.length < 4) :
    ∃ a b c d rest, bs = a :: b :: c :: d :: rest := by
  match bs, h with
  | [], h => exact absurd (by simp) h
  | [_], h => exact absurd (by simp) h
  | [_, _], h => exact absurd (by simp) h
  | [_, _, _], h => exact absurd (by simp) h
  | a :: b :: c :: d :: rest, _ => exact ⟨a, b, c, d, rest, rfl⟩

theorem number_concat (bs : Bytes) (b : UInt8) : number (bs ++ [b]) = number bs * 256 + b.toNat := by
  simp [number]

theorem number_cons (b : UInt8) (bs : Bytes) :
    number (b :: bs) = b.toNat * 256 ^ bs.length + number bs := by
  induction bs using List.reverseRecOn with
  | nil => simp [number]
  | append_singleton bs c ih =>
    have last := number_concat (b :: bs) c
    rw [List.cons_append] at last
    rw [last, ih, number_concat, List.length_append, List.length_singleton, Nat.pow_succ,
      Nat.add_mul, Nat.mul_assoc, Nat.add_assoc]

theorem number_lt (bs : Bytes) : number bs < 256 ^ bs.length := by
  induction bs using List.reverseRecOn with
  | nil => exact Nat.one_pos
  | append_singleton bs b ih =>
    rw [number_concat, List.length_append, List.length_singleton, Nat.pow_succ]
    have := b.toNat_lt
    omega

theorem number_bigEndian (width n : Nat) : number (bigEndian width n) = n % 256 ^ width := by
  induction width with
  | zero => rw [Nat.pow_zero, Nat.mod_one]; rfl
  | succ width ih =>
    have high : (UInt8.ofNat (n / 256 ^ width)).toNat = n / 256 ^ width % 256 := rfl
    calc number (bigEndian (width + 1) n)
        = (UInt8.ofNat (n / 256 ^ width)).toNat * 256 ^ (bigEndian width n).length +
            number (bigEndian width n) := number_cons _ _
      _ = 256 ^ width * (n / 256 ^ width % 256) + n % 256 ^ width := by
          rw [high, ih, length_bigEndian, Nat.mul_comm]
      _ = n % 256 ^ (width + 1) := by
          rw [Nat.pow_succ, Nat.mod_mul, Nat.add_comm]

theorem number_bigEndian_of_lt (h : n < 256 ^ width) : number (bigEndian width n) = n := by
  rw [number_bigEndian, Nat.mod_eq_of_lt h]

theorem bigEndian_number (bs : Bytes) : bigEndian bs.length (number bs) = bs := by
  have low (width high n : Nat) : bigEndian width (high * 256 ^ width + n) = bigEndian width n := by
    induction width generalizing high with
    | zero => rfl
    | succ width ih =>
      have shift : high * 256 ^ (width + 1) + n = high * 256 * 256 ^ width + n := by
        rw [Nat.pow_succ, Nat.mul_assoc, Nat.mul_comm 256]
      have digit : (high * 256 * 256 ^ width + n) / 256 ^ width = n / 256 ^ width + 256 * high := by
        rw [Nat.add_comm, Nat.add_mul_div_right _ _ (Nat.pow_pos (by decide)), Nat.mul_comm 256]
      rw [bigEndian, bigEndian, shift, ih, Nat.pow_eq, digit]
      congr 1
      rw [← UInt8.toNat_inj, UInt8.toNat_ofNat', UInt8.toNat_ofNat']
      omega
  induction bs with
  | nil => rfl
  | cons b bs ih =>
    have small : number bs < 256 ^ bs.length := number_lt bs
    have digit : (b.toNat * 256 ^ bs.length + number bs) / 256 ^ bs.length = b.toNat := by
      rw [Nat.add_comm, Nat.add_mul_div_right _ _ (Nat.pow_pos (by decide)),
        Nat.div_eq_of_lt small, Nat.zero_add]
    rw [List.length_cons, bigEndian, number_cons, low, ih, Nat.pow_eq, digit, UInt8.ofNat_toNat]

theorem length_field (width : Nat) (content : Bytes) :
    (field width content).length = width + content.length := by
  rw [field, List.length_append, length_bigEndian]

theorem length_le_length_flatMap {α : Type} {encode : α → Bytes} {as : List α} {a : α}
    (h : a ∈ as) :
    (encode a).length ≤ (as.flatMap encode).length :=
  (List.sublist_flatten_of_mem (List.mem_map_of_mem h)).length_le

theorem field?_append (fits : content.length < 256 ^ width) (rest : Bytes) :
    field? width (field width content ++ rest) = some (content, rest) := by
  unfold field? field
  rw [List.append_assoc, take?_append_of_length (length_bigEndian width content.length)]
  simp only [Option.bind_eq_bind, Option.bind_some]
  rw [number_bigEndian_of_lt fits, take?_append]

theorem eq_append_of_field? {width : Nat} {bs content rest : Bytes}
    (h : field? width bs = some (content, rest)) : bs = field width content ++ rest := by
  unfold field? at h
  cases hlen : take? width bs with
  | none => rw [hlen] at h; exact absurd h nofun
  | some p =>
    obtain ⟨length, after⟩ := p
    rw [hlen] at h
    obtain ⟨rfl, width_eq⟩ := eq_append_of_take? hlen
    have read : take? (number length) after = some (content, rest) := h
    obtain ⟨rfl, number_eq⟩ := eq_append_of_take? read
    rw [field, number_eq, ← width_eq, bigEndian_number, List.append_assoc]

theorem length_lt_of_field? {width : Nat} {bs content rest : Bytes}
    (h : field? width bs = some (content, rest)) : content.length < 256 ^ width := by
  obtain ⟨⟨length, after⟩, read_length, read_content⟩ := Option.bind_eq_some_iff.1 h
  obtain ⟨-, width_eq⟩ := eq_append_of_take? read_length
  obtain ⟨-, number_eq⟩ := eq_append_of_take? read_content
  rw [number_eq, ← width_eq]
  exact number_lt length

def whole? {α : Type} (read : Option (α × Bytes)) : Option α :=
  match read with
  | some (a, []) => some a
  | _ => none

theorem whole?_field (fits : content.length < 256 ^ width) :
    whole? (field? width (field width content)) = some content := by
  have read := field?_append fits []
  rw [List.append_nil] at read
  rw [read]
  rfl

def items? {α : Type} (item? : Bytes → Option (α × Bytes)) (bs : Bytes) : Option (List α) :=
  if bs.isEmpty then some []
  else
    match item? bs with
    | none => none
    | some (a, rest) =>
      if rest.length < bs.length then (items? item? rest).map (a :: ·) else none
termination_by bs.length

theorem items?_flatMap {α : Type} {item? : Bytes → Option (α × Bytes)} {encode : α → Bytes}
    {as : List α} (reads : ∀ a ∈ as, ∀ rest, item? (encode a ++ rest) = some (a, rest))
    (nonempty : ∀ a ∈ as, encode a ≠ []) : items? item? (as.flatMap encode) = some as := by
  induction as with
  | nil => rw [items?]; rfl
  | cons a as ih =>
    obtain ⟨read, reads⟩ := List.forall_mem_cons.1 reads
    obtain ⟨some_byte, nonempty⟩ := List.forall_mem_cons.1 nonempty
    have shorter : (as.flatMap encode).length < ((a :: as).flatMap encode).length := by
      have := List.length_pos_iff.2 some_byte
      rw [List.flatMap_cons, List.length_append]
      omega
    have begun : ((a :: as).flatMap encode).isEmpty = false := by simp [some_byte]
    rw [items?, begun]
    rw [List.flatMap_cons] at shorter ⊢
    simp only [read, if_pos shorter, ih reads nonempty]
    rfl

def list? {α : Type} (width : Nat) (item? : Bytes → Option (α × Bytes)) (bs : Bytes) :
    Option (List α) := do
  items? item? (← whole? (field? width bs))

theorem list?_field {α : Type} {item? : Bytes → Option (α × Bytes)} {as : List α}
    (fits : content.length < 256 ^ width) (items : items? item? content = some as) :
    list? width item? (field width content) = some as := by
  rw [list?, whole?_field fits]
  exact items

end FleetPosture.Wire
