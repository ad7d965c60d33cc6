import FleetPosture.Json.Printer
import FleetPosture.Json.Token
import FleetPosture.Proofs.Text.Numeral

/-! Strings and numerals are read as the single tokens that they were written as, whatever follows
them. -/

namespace FleetPosture.Json

/-! What one character does in each mode. -/

section Steps

variable {c d : Char} {cs w : List Char} {s : Unfinished} {m : Mode}

theorem tokensFrom_opening (h : opens c = some (none, m)) :
    tokensFrom .between (c :: cs) = tokensFrom m cs := by
  rw [tokensFrom, h]

theorem tokensFrom_wordChar (h : isWordChar c) :
    tokensFrom (.word w) (c :: cs) = tokensFrom (.word (c :: w)) cs :=
  if_pos h

theorem tokensFrom_quote :
    tokensFrom (.text s) ('"' :: cs) = (tokensFrom .between cs).map (.string s.finish :: ·) :=
  if_pos rfl

theorem tokensFrom_backslash : tokensFrom (.text s) ('\\' :: cs) = tokensFrom (.escape s) cs :=
  (if_neg (by decide)).trans (if_pos rfl)

theorem tokensFrom_printable (quote : c ≠ '"') (backslash : c ≠ '\\')
    (printable : ¬ c.toNat < 0x20) :
    tokensFrom (.text s) (c :: cs) = tokensFrom (.text (s.add c)) cs :=
  (if_neg quote).trans ((if_neg backslash).trans (if_neg printable))

theorem tokensFrom_escape (hu : c ≠ 'u') (hd : unescape? c = some d) :
    tokensFrom (.escape s) (c :: cs) = tokensFrom (.text (s.add d)) cs := by
  refine (if_neg hu).trans ?_
  rw [hd]

theorem tokensFrom_numeric : tokensFrom (.escape s) ('u' :: cs) = tokensFrom (.code s 4 0) cs :=
  if_pos rfl

end Steps

theorem unescape?_short {c d : Char} (h : (d, c) ∈ [('"', '"'), ('\\', '\\'), ('b', '\x08'),
    ('t', '\t'), ('n', '\n'), ('f', '\x0c'), ('r', '\r')]) :
    d ≠ 'u' ∧ unescape? d = some c := by
  have short : ∀ e ∈ [('"', '"'), ('\\', '\\'), ('b', '\x08'), ('t', '\t'), ('n', '\n'),
    ('f', '\x0c'), ('r', '\r')], e.1 ≠ 'u' ∧ unescape? e.1 = some e.2 := by decide
  exact short _ h

theorem tokensFrom_short {c d : Char} (h : (d, c) ∈ [('"', '"'), ('\\', '\\'), ('b', '\x08'),
    ('t', '\t'), ('n', '\n'), ('f', '\x0c'), ('r', '\r')]) (s : Unfinished) (rest : List Char) :
    tokensFrom (.text s) ('\\' :: d :: rest) = tokensFrom (.text (s.add c)) rest := by
  obtain ⟨hu, hd⟩ := unescape?_short h
  rw [tokensFrom_backslash, tokensFrom_escape hu hd]

theorem tokensFrom_code_cons {d : Nat} (hd : d < 16) (s : Unfinished) (missing value : Nat)
    (rest : List Char) :
    tokensFrom (.code s missing value) (Nat.digitChar d :: rest) =
      if missing = 1 then tokensFrom (.text (s.addUnit (value * 16 + d))) rest
      else tokensFrom (.code s (missing - 1) (value * 16 + d)) rest := by
  rw [tokensFrom, Text.digitValue?_digitChar hd (by decide)]

theorem addUnit_of_lt {n : Nat} (h : n < 0x20) (reversed : List Char) :
    (⟨reversed, none, true⟩ : Unfinished).addUnit n = ⟨Char.ofNat n :: reversed, none, true⟩ := by
  rw [Unfinished.addUnit]
  simp only
  rw [if_neg (by omega), if_neg (by omega)]

theorem tokensFrom_code {c : Char} (h : c.toNat < 0x20) (reversed rest : List Char) :
    tokensFrom (.text ⟨reversed, none, true⟩)
        ('\\' :: 'u' :: '0' :: '0' :: Nat.digitChar (c.toNat / 16) :: Nat.digitChar (c.toNat % 16) ::
          rest) = tokensFrom (.text ⟨c :: reversed, none, true⟩) rest := by
  rw [tokensFrom_backslash, tokensFrom_numeric]
  rw [show '0' = Nat.digitChar 0 from rfl, tokensFrom_code_cons (by decide), if_neg (by decide),
    tokensFrom_code_cons (by decide), if_neg (by decide), tokensFrom_code_cons (by omega),
    if_neg (by decide), tokensFrom_code_cons (by omega), if_pos rfl]
  have number : (((0 * 16 + 0) * 16 + 0) * 16 + c.toNat / 16) * 16 + c.toNat % 16 = c.toNat := by
    omega
  rw [number, addUnit_of_lt h, Char.ofNat_toNat]

theorem tokensFrom_escapedChar (c : Char) (reversed rest : List Char) :
    tokensFrom (.text ⟨reversed, none, true⟩) (escapedChar c ++ rest) =
      tokensFrom (.text ⟨c :: reversed, none, true⟩) rest := by
  unfold escapedChar
  split
  case isTrue h => rw [h]; exact tokensFrom_short (by decide) _ rest
  case isFalse quote =>
  split
  case isTrue h => rw [h]; exact tokensFrom_short (by decide) _ rest
  case isFalse backslash =>
  split
  case isTrue h => rw [h]; exact tokensFrom_short (by decide) _ rest
  split
  case isTrue h => rw [h]; exact tokensFrom_short (by decide) _ rest
  split
  case isTrue h => rw [h]; exact tokensFrom_short (by decide) _ rest
  split
  case isTrue h => rw [h]; exact tokensFrom_short (by decide) _ rest
  split
  case isTrue h => rw [h]; exact tokensFrom_short (by decide) _ rest
  split
  case isTrue control => exact tokensFrom_code control reversed rest
  case isFalse printable =>
    rw [List.singleton_append, tokensFrom_printable quote backslash printable]
    rfl

theorem tokensFrom_escaped (cs reversed rest : List Char) :
    tokensFrom (.text ⟨reversed, none, true⟩) (cs.flatMap escapedChar ++ rest) =
      tokensFrom (.text ⟨cs.reverse ++ reversed, none, true⟩) rest := by
  induction cs generalizing reversed with
  | nil => rfl
  | cons c cs ih =>
    rw [List.flatMap_cons, List.append_assoc, tokensFrom_escapedChar, ih, List.reverse_cons,
      List.append_assoc, List.singleton_append]

theorem tokensFrom_stringChars (s : String) (rest : List Char) :
    tokensFrom .between (stringChars s ++ rest) =
      (tokensFrom .between rest).map (.string (some s) :: ·) := by
  have opened : opens '"' = some (none, .text .start) := by rfl
  have finished : (⟨s.toList.reverse ++ [], none, true⟩ : Unfinished).finish = some s := by
    rw [Unfinished.finish, if_pos (by rfl), List.append_nil, List.reverse_reverse,
      String.ofList_toList]
  rw [stringChars, List.cons_append, List.cons_append, List.append_assoc,
    tokensFrom_opening opened, Unfinished.start, tokensFrom_escaped, List.singleton_append,
    tokensFrom_quote, finished]

def Delimits (rest : List Char) : Prop := ∀ c ∈ rest.head?, isWordChar c = false

theorem opens_wordChar {c : Char} (h : isWordChar c) : opens c = some (none, .word [c]) := by
  have other {d : Char} (hd : isWordChar d = false) : c ≠ d := by
    rintro rfl
    exact absurd h (by simp [hd])
  have blank : isSpace c = false := by
    simp only [isSpace, Bool.or_eq_false_iff, beq_eq_false_iff_ne]
    exact ⟨⟨⟨other rfl, other rfl⟩, other rfl⟩, other rfl⟩
  rw [opens, if_neg (by simp [blank]), if_neg (other rfl), if_neg (other rfl), if_neg (other rfl),
    if_neg (other rfl), if_neg (other rfl), if_neg (other rfl), if_neg (other rfl), if_pos h]

theorem tokensFrom_word (w cs rest : List Char) (h : ∀ c ∈ cs, isWordChar c) :
    tokensFrom (.word w) (cs ++ rest) = tokensFrom (.word (cs.reverse ++ w)) rest := by
  induction cs generalizing w with
  | nil => rfl
  | cons c cs ih =>
    obtain ⟨hc, hcs⟩ := List.forall_mem_cons.1 h
    rw [List.cons_append, tokensFrom_wordChar hc, ih _ hcs, List.reverse_cons, List.append_assoc,
      List.singleton_append]

theorem tokensFrom_word_end {w rest : List Char} {v : Json} (hv : scalar? w.reverse = some v)
    (hr : Delimits rest) :
    tokensFrom (.word w) rest = (tokensFrom .between rest).map (.scalar v :: ·) := by
  cases rest with
  | nil => simp only [tokensFrom, hv, Option.map_some]
  | cons c cs =>
    have hc : isWordChar c = false := hr c rfl
    simp only [tokensFrom, hc, hv, Bool.false_eq_true, if_false]
    cases hm : opens c with
    | none => rfl
    | some om =>
      obtain ⟨t, m⟩ := om
      cases t with
      | none => rfl
      | some t => simp only [Option.map_map]; rfl

theorem tokensFrom_scalar {cs rest : List Char} {v : Json} (hv : scalar? cs = some v)
    (words : ∀ c ∈ cs, isWordChar c) (nonempty : cs ≠ []) (hr : Delimits rest) :
    tokensFrom .between (cs ++ rest) = (tokensFrom .between rest).map (.scalar v :: ·) := by
  cases cs with
  | nil => exact absurd rfl nonempty
  | cons c cs =>
    obtain ⟨hc, hcs⟩ := List.forall_mem_cons.1 words
    rw [List.cons_append, tokensFrom_opening (opens_wordChar hc), tokensFrom_word _ _ _ hcs]
    exact tokensFrom_word_end (by simpa using hv) hr

theorem isDigit_of_mem_toDigits {m : Nat} {c : Char} (h : c ∈ Nat.toDigits 10 m) : c.isDigit :=
  Nat.isDigit_of_mem_toDigits (by decide) (by decide) h

theorem isWordChar_of_mem_toDigits {m : Nat} {c : Char} (h : c ∈ Nat.toDigits 10 m) :
    isWordChar c := by
  simp [isWordChar, Char.isAlphanum, isDigit_of_mem_toDigits h]

theorem toDigits_eq_cons (m : Nat) : ∃ c cs, Nat.toDigits 10 m = c :: cs ∧ c.isDigit := by
  cases h : Nat.toDigits 10 m with
  | nil => exact absurd h (by simp)
  | cons c cs => exact ⟨c, cs, rfl, isDigit_of_mem_toDigits (m := m) (h ▸ List.mem_cons_self)⟩

theorem head?_toDigits {m : Nat} (h : m ≠ 0) : (Nat.toDigits 10 m).head? ≠ some '0' := by
  induction m using Nat.strongRecOn with
  | ind m ih =>
    by_cases hm : m < 10
    · have digits : ∀ d < 10, d ≠ 0 → [Nat.digitChar d].head? ≠ some '0' := by decide
      rw [Nat.toDigits_of_lt_base hm]
      exact digits m hm h
    · have nonempty : (Nat.toDigits 10 (m / 10)) ≠ [] := by simp
      rw [Nat.toDigits_of_base_le (by decide) (by omega), List.head?_append]
      rw [Option.or_of_isSome (List.isSome_head?.2 nonempty)]
      exact ih (m / 10) (by omega) (by omega)

theorem no_leading_zero (m : Nat) :
    ((Nat.toDigits 10 m).head? == some '0' && decide ((Nat.toDigits 10 m).length > 1)) = false := by
  rw [Bool.and_eq_false_iff]
  by_cases h : m = 0
  · exact .inr (by rw [h]; decide)
  · exact .inl (beq_false_of_ne (head?_toDigits h))

theorem takeWhile_toDigits (m : Nat) :
    (Nat.toDigits 10 m).takeWhile Char.isDigit = Nat.toDigits 10 m ∧
      (Nat.toDigits 10 m).dropWhile Char.isDigit = [] := by
  have digits : ∀ c ∈ Nat.toDigits 10 m, c.isDigit := fun _ hc => isDigit_of_mem_toDigits hc
  constructor
  · rw [← List.append_nil (Nat.toDigits 10 m), List.takeWhile_append_of_pos digits, List.takeWhile_nil]
  · rw [← List.append_nil (Nat.toDigits 10 m), List.dropWhile_append_of_pos digits, List.dropWhile_nil]

theorem numeral?_unsigned {m : Nat} (h : m ≤ Text.maxU64) :
    numeral? (Nat.toDigits 10 m) = some (.integer m) := by
  have positive : ((Nat.toDigits 10 m).head? == some '-') = false := by
    obtain ⟨c, cs, hcs, hc⟩ := toDigits_eq_cons m
    rw [hcs, List.head?_cons, beq_eq_false_iff_ne]
    rintro ⟨⟩
    exact absurd hc (by decide)
  have value : Text.digits? 10 (Nat.toDigits 10 m) = some m :=
    Text.digits?_toDigits (by decide) (by decide) m
  obtain ⟨whole, tail⟩ := takeWhile_toDigits m
  have nonempty : (Nat.toDigits 10 m).isEmpty = false := by simp
  rw [numeral?]
  simp only [positive, Bool.false_eq_true, if_false, whole, tail, no_leading_zero, nonempty, value, h,
    if_true]
  rfl

theorem numeral?_signed {m : Nat} (h0 : m ≠ 0) (h : m ≤ 9223372036854775808) :
    numeral? ('-' :: Nat.toDigits 10 m) = some (.integer (-(m : Int))) := by
  have value : Text.digits? 10 (Nat.toDigits 10 m) = some m :=
    Text.digits?_toDigits (by decide) (by decide) m
  obtain ⟨whole, tail⟩ := takeWhile_toDigits m
  have nonempty : (Nat.toDigits 10 m).isEmpty = false := by simp
  have inRange : ¬ (m = 0 ∨ 9223372036854775808 < m) := by omega
  rw [numeral?]
  simp only [List.head?_cons, beq_self_eq_true, if_true, List.drop_succ_cons, List.drop_zero, whole,
    tail, no_leading_zero, nonempty, value, if_neg inRange]
  rfl

theorem scalar?_numeral {c : Char} (h : c.isDigit ∨ c = '-') (cs : List Char) :
    scalar? (c :: cs) = numeral? (c :: cs) := by
  have other {word : List Char} {d : Char} (hw : word.head? = some d) (hd : d.isDigit = false)
      (hm : d ≠ '-') : c :: cs ≠ word := by
    rintro rfl
    obtain rfl := Option.some.inj hw
    exact h.elim (by simp [hd]) hm
  rw [scalar?, if_neg (other (d := 'n') rfl rfl (by decide)),
    if_neg (other (d := 't') rfl rfl (by decide)), if_neg (other (d := 'f') rfl rfl (by decide))]

theorem scalar?_integerChars {n : Int} (low : -9223372036854775808 ≤ n) (high : n ≤ Text.maxU64) :
    scalar? (integerChars n) = some (.integer n) := by
  unfold integerChars
  split
  · next m =>
    obtain ⟨c, cs, hcs, hc⟩ := toDigits_eq_cons m
    rw [hcs, scalar?_numeral (.inl hc), ← hcs]
    exact numeral?_unsigned (Int.ofNat_le.1 high)
  · next m =>
    rw [scalar?_numeral (.inr rfl)]
    exact numeral?_signed (by omega) (by omega)

theorem isWordChar_of_mem_integerChars {n : Int} {c : Char} (h : c ∈ integerChars n) :
    isWordChar c := by
  unfold integerChars at h
  split at h
  · exact isWordChar_of_mem_toDigits h
  · rcases List.mem_cons.1 h with rfl | h
    · decide
    · exact isWordChar_of_mem_toDigits h

theorem integerChars_ne_nil (n : Int) : integerChars n ≠ [] := by
  unfold integerChars
  split <;> simp

end FleetPosture.Json
