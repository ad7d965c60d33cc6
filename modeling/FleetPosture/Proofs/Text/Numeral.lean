import FleetPosture.Text.Numeral

/-! Which texts are numbers, and of what value. Reading undoes writing: digits give back the value
that they were made from, also behind zeros that only fill them up. -/

namespace FleetPosture.Text

theorem digitValue?_digitChar {radix d : Nat} (hd : d < radix) (h16 : radix ≤ 16) :
    digitValue? radix (Nat.digitChar d) = some d := by
  have values : ∀ r ≤ 16, ∀ d < r, digitValue? r (Nat.digitChar d) = some d := by decide
  exact values radix h16 d hd

theorem digitsFrom?_append {radix start : Nat} (a b : List Char) :
    digitsFrom? radix start (a ++ b) = (digitsFrom? radix start a).bind (digitsFrom? radix · b) := by
  simp only [digitsFrom?, List.foldlM_append]
  rfl

theorem digitsFrom?_digitChar {radix start d : Nat} (hd : d < radix) (h16 : radix ≤ 16) :
    digitsFrom? radix start [Nat.digitChar d] = some (start * radix + d) := by
  simp only [digitsFrom?, List.foldlM_cons, List.foldlM_nil, digitValue?_digitChar hd h16]
  rfl

theorem digitsFrom?_toDigits {radix : Nat} (h2 : 1 < radix) (h16 : radix ≤ 16) (n : Nat) :
    digitsFrom? radix 0 (Nat.toDigits radix n) = some n := by
  induction n using Nat.strongRecOn with
  | ind n ih =>
    by_cases hn : n < radix
    · rw [Nat.toDigits_of_lt_base hn, digitsFrom?_digitChar hn h16, Nat.zero_mul, Nat.zero_add]
    · have hle : radix ≤ n := Nat.le_of_not_lt hn
      have hdiv : n / radix < n := Nat.div_lt_self (by omega) h2
      rw [Nat.toDigits_of_base_le h2 hle, digitsFrom?_append, ih _ hdiv, Option.bind_some,
        digitsFrom?_digitChar (Nat.mod_lt n (by omega)) h16, Nat.mul_comm, Nat.div_add_mod]

theorem digits?_toDigits {radix : Nat} (h2 : 1 < radix) (h16 : radix ≤ 16) (n : Nat) :
    digits? radix (Nat.toDigits radix n) = some n := by
  rw [digits?, if_neg (by simp), digitsFrom?_toDigits h2 h16]

theorem not_mem_toDigits {c : Char} (h : c.isDigit = false) (n : Nat) : c ∉ Nat.toDigits 10 n := by
  intro hc
  have digit : c.isDigit := Nat.isDigit_of_mem_toDigits (by decide) (by decide) hc
  exact Bool.false_ne_true (h.symm.trans digit)

theorem numeral?_toDigits {limit n : Nat} (h : n ≤ limit) :
    numeral? 10 limit (Nat.toDigits 10 n) = some n := by
  have value : digits? 10 (Nat.toDigits 10 n) = some n := digits?_toDigits (by decide) (by decide) n
  unfold numeral?
  split
  case h_1 r hr => exact absurd (hr ▸ List.mem_cons_self) (not_mem_toDigits (c := '+') rfl n)
  case h_2 =>
    dsimp only
    rw [value, Option.filter_some, if_pos (decide_eq_true h)]

theorem uint16?_toDigits (n : UInt16) : uint16? (Nat.toDigits 10 n.toNat) = some n := by
  have le : n.toNat ≤ maxU16 := Nat.le_of_lt_succ n.toNat_lt
  rw [uint16?, numeral?_toDigits le, Option.map_some, UInt16.ofNat_toNat]

theorem uint32?_toDigits (n : UInt32) : uint32? (Nat.toDigits 10 n.toNat) = some n := by
  have le : n.toNat ≤ maxU32 := Nat.le_of_lt_succ n.toNat_lt
  rw [uint32?, numeral?_toDigits le, Option.map_some, UInt32.ofNat_toNat]

theorem toString_nat_injective {m n : Nat} (h : toString m = toString n) : m = n := by
  have digits : Nat.toDigits 10 m = Nat.toDigits 10 n := by
    simpa only [Nat.toString_eq_repr, Nat.toList_repr] using congrArg String.toList h
  have value (k : Nat) : digits? 10 (Nat.toDigits 10 k) = some k :=
    digits?_toDigits (by decide) (by decide) k
  exact Option.some.inj ((value m).symm.trans ((congrArg (digits? 10) digits).trans (value n)))

section Decimal

variable {radix start limit n : Nat} {s ds : List Char} {c : Char}

def IsDigitOf (radix : Nat) (c : Char) : Prop :=
  '0'.toNat ≤ c.toNat ∧ c.toNat < '0'.toNat + radix

theorem IsDigitOf.isDigit (h10 : radix ≤ 10) (h : IsDigitOf radix c) : c.isDigit := by
  have nine : '9'.toNat + 1 = '0'.toNat + 10 := rfl
  rw [Char.isDigit_iff_toNat]
  exact ⟨h.1, by have := h.2; omega⟩

theorem digitValue?_eq_some_iff (h10 : radix ≤ 10) {d : Nat} :
    digitValue? radix c = some d ↔ IsDigitOf radix c ∧ c.toNat - '0'.toNat = d := by
  have zero : '0'.toNat = 48 := rfl
  rw [IsDigitOf, zero, digitValue?, Option.ite_none_right_eq_some, Option.some.injEq]
  split
  · omega
  · split
    · omega
    · split <;> omega

theorem digitsFrom?_eq_some_iff (h10 : radix ≤ 10) :
    digitsFrom? radix start ds = some n ↔
      (∀ c ∈ ds, IsDigitOf radix c) ∧ Nat.ofDigitChars radix ds start = n := by
  induction ds generalizing start with
  | nil => simp [digitsFrom?]
  | cons c ds ih =>
    have step : digitsFrom? radix start (c :: ds) =
        (digitValue? radix c).bind fun d => digitsFrom? radix (start * radix + d) ds := by
      rw [digitsFrom?, List.foldlM_cons]
      cases digitValue? radix c <;> rfl
    simp only [step, Option.bind_eq_some_iff, digitValue?_eq_some_iff h10, ih,
      List.forall_mem_cons, Nat.ofDigitChars_cons, Nat.mul_comm radix start]
    constructor
    · rintro ⟨_, ⟨hc, rfl⟩, hds, rfl⟩
      exact ⟨⟨hc, hds⟩, rfl⟩
    · rintro ⟨⟨hc, hds⟩, rfl⟩
      exact ⟨_, ⟨hc, rfl⟩, hds, rfl⟩

theorem digits?_eq_some_iff (h10 : radix ≤ 10) : digits? radix ds = some n ↔
    ds ≠ [] ∧ (∀ c ∈ ds, IsDigitOf radix c) ∧ Nat.ofDigitChars radix ds 0 = n := by
  rw [digits?, Option.ite_none_left_eq_some, digitsFrom?_eq_some_iff h10, List.isEmpty_iff]

theorem numeral?_eq_some_iff (h10 : radix ≤ 10) : numeral? radix limit s = some n ↔
    ∃ sign ds, (sign = [] ∨ sign = ['+']) ∧ s = sign ++ ds ∧ ds ≠ [] ∧
      (∀ c ∈ ds, IsDigitOf radix c) ∧ Nat.ofDigitChars radix ds 0 = n ∧ n ≤ limit := by
  unfold numeral?
  simp only [Option.filter_eq_some_iff, digits?_eq_some_iff h10, decide_eq_true_eq, and_assoc]
  constructor
  · split
    case h_1 r => exact fun value => ⟨['+'], r, .inr rfl, rfl, value⟩
    case h_2 => exact fun value => ⟨[], s, .inl rfl, rfl, value⟩
  · rintro ⟨sign, ds, rfl | rfl, rfl, nonempty, digit, value⟩
    · split
      case h_1 =>
        -- the plus sign is no digit
        exact absurd (digit '+' List.mem_cons_self).1 (by decide)
      case h_2 => exact ⟨nonempty, digit, value⟩
    · exact ⟨nonempty, digit, value⟩

theorem le_of_numeral? (h : numeral? radix limit s = some n) : n ≤ limit :=
  of_decide_eq_true (Option.filter_eq_some_iff.1 h).2

end Decimal

section Padded

variable {width n : Nat}

theorem toList_padded : (padded width n).toList =
    List.replicate (width - (Nat.toDigits 10 n).length) '0' ++ Nat.toDigits 10 n := by
  simp only [padded, String.toList_ofList]

theorem length_padded (hw : 0 < width) (hn : n < Nat.pow 10 width) :
    (padded width n).toList.length = width := by
  have h : (Nat.toDigits 10 n).length ≤ width :=
    (Nat.length_toDigits_le_iff (by decide) hw).2 hn
  rw [toList_padded, List.length_append, List.length_replicate]
  omega

theorem isDigit_of_mem_padded {c : Char} (h : c ∈ (padded width n).toList) : c.isDigit := by
  rw [toList_padded, List.mem_append] at h
  rcases h with h | h
  · rw [List.eq_of_mem_replicate h]
    rfl
  · exact Nat.isDigit_of_mem_toDigits (by decide) (by decide) h

theorem digitsFrom?_zeros (k : Nat) : digitsFrom? 10 0 (List.replicate k '0') = some 0 := by
  induction k with
  | zero => rfl
  | succ k ih => rw [List.replicate_succ', digitsFrom?_append, ih]; rfl

theorem digits?_padded : digits? 10 (padded width n).toList = some n := by
  have hne : (padded width n).toList ≠ [] := by
    rw [toList_padded]
    simp
  rw [digits?, if_neg (by simpa using hne), toList_padded, digitsFrom?_append, digitsFrom?_zeros,
    Option.bind_some, digitsFrom?_toDigits (by decide) (by decide)]

end Padded

end FleetPosture.Text
