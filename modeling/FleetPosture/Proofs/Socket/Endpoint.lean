import FleetPosture.Proofs.Socket.Bound

/-! Which texts are endpoints, of what host and port, and why any other text is none. The first
character tells the two notations apart, so that a text is read in one way only; what is wrong with
the notation is told before what is wrong with the number. -/

namespace FleetPosture.Socket

variable {s host port : List Char} {n : UInt16}

def Numbers (port : List Char) (n : UInt16) : Prop :=
  ∃ sign digits, (sign = [] ∨ sign = ['+']) ∧ port = sign ++ digits ∧ digits ≠ [] ∧
    (∀ c ∈ digits, c.isDigit) ∧ Nat.ofDigitChars 10 digits 0 = n.toNat

/-- A host and the text of a port in one of the two notations. A host in brackets may have anything
but a closing bracket, and its port may be any text; without brackets the last colon counts. -/
def Spells (s host port : List Char) : Prop :=
  host ≠ [] ∧
    if s.head? = some '[' then s = '[' :: (host ++ ']' :: ':' :: port) ∧ ']' ∉ host
    else s = host ++ ':' :: port ∧ ':' ∉ port

instance (s host port : List Char) : Decidable (Spells s host port) :=
  inferInstanceAs (Decidable (_ ∧ ite _ _ _))

section Numbers

theorem isDigitOf_ten_iff {c : Char} : Text.IsDigitOf 10 c ↔ c.isDigit := by
  have nine : '9'.toNat + 1 = '0'.toNat + 10 := rfl
  rw [Char.isDigit_iff_toNat, Text.IsDigitOf]
  omega

theorem uint16?_eq_some_iff : Text.uint16? port = some n ↔ Numbers port n := by
  have limit : ∀ k, k ≤ Text.maxU16 ∧ UInt16.ofNat k = n ↔ k = n.toNat := by
    intro k
    constructor
    · rintro ⟨le, rfl⟩
      exact (UInt16.toNat_ofNat_of_lt' (Nat.lt_succ_of_le le)).symm
    · rintro rfl
      exact ⟨Nat.le_of_lt_succ n.toNat_lt, UInt16.ofNat_toNat⟩
  rw [Text.uint16?, Option.map_eq_some_iff, Numbers]
  simp only [Text.numeral?_eq_some_iff (Nat.le_refl 10), isDigitOf_ten_iff]
  constructor
  · rintro ⟨k, ⟨sign, digits, plus, rfl, nonempty, decimal, rfl, le⟩, value⟩
    exact ⟨sign, digits, plus, rfl, nonempty, decimal, (limit _).1 ⟨le, value⟩⟩
  · rintro ⟨sign, digits, plus, rfl, nonempty, decimal, value⟩
    obtain ⟨le, same⟩ := (limit _).2 value
    exact ⟨_, ⟨sign, digits, plus, rfl, nonempty, decimal, rfl, le⟩, same⟩

end Numbers

section Spells

theorem cutEndpoint?_bracket (r : List Char) : cutEndpoint? ('[' :: r) = some (host, port) ↔
    r = host ++ ']' :: ':' :: port ∧ ']' ∉ host := by
  simp only [cutEndpoint?, bind, Option.bind_eq_some_iff, Prod.exists, Text.cutFirst?_eq_some_iff]
  constructor
  · rintro ⟨front, tail, ⟨rfl, closed⟩, rest⟩
    split at rest
    · obtain ⟨rfl, rfl⟩ := Prod.mk.inj (Option.some.inj rest)
      exact ⟨rfl, closed⟩
    · exact absurd rest (Option.some_ne_none _).symm
  · rintro ⟨rfl, closed⟩
    exact ⟨host, ':' :: port, ⟨rfl, closed⟩, rfl⟩

theorem spells_iff : Spells s host port ↔ host ≠ [] ∧ cutEndpoint? s = some (host, port) := by
  refine and_congr_right fun _ => ?_
  split
  case isTrue bracket =>
    obtain ⟨r, rfl⟩ := List.head?_eq_some_iff.1 bracket
    rw [cutEndpoint?_bracket, List.cons.injEq, eq_self, true_and]
  case isFalse bare => rw [cutEndpoint?_of_head bare, Text.cutLast?_eq_some_iff]

end Spells

section Split

theorem splitEndpoint_of_not_spells (h : ∀ host port, ¬ Spells s host port) :
    splitEndpoint s = .error (.address (String.ofList s)) := by
  unfold splitEndpoint
  split
  case h_1 => rfl
  case h_2 host port cut =>
    have empty : host = [] := by
      by_contra nonempty
      exact h host port (spells_iff.2 ⟨nonempty, cut⟩)
    rw [empty]
    rfl

theorem splitEndpoint_number (h : Spells s host port) (value : Text.uint16? port = some n) :
    splitEndpoint s = .ok (String.ofList host, n) :=
  splitEndpoint_of_cut (spells_iff.1 h).2 h.1 value

theorem splitEndpoint_noNumber (h : Spells s host port) (noNumber : Text.uint16? port = none) :
    splitEndpoint s = .error (.number (String.ofList port)) := by
  obtain ⟨nonempty, cut⟩ := spells_iff.1 h
  simp only [splitEndpoint, cut, List.isEmpty_iff, nonempty, if_false, noNumber]

theorem splitEndpoint_eq_ok_iff {name : String} :
    splitEndpoint s = .ok (name, n) ↔ ∃ port, Spells s name.toList port ∧ Numbers port n := by
  simp only [← uint16?_eq_some_iff]
  constructor
  · intro read
    by_cases shape : ∃ host port, Spells s host port
    · obtain ⟨host, port, spelled⟩ := shape
      cases value : Text.uint16? port with
      | none => nomatch (splitEndpoint_noNumber spelled value).symm.trans read
      | some k =>
        have same := (splitEndpoint_number spelled value).symm.trans read
        obtain ⟨rfl, rfl⟩ := Prod.mk.inj (Except.ok.inj same)
        exact ⟨port, String.toList_ofList.symm ▸ spelled, value⟩
    · have none : ∀ host port, ¬ Spells s host port := fun host port h => shape ⟨host, port, h⟩
      nomatch (splitEndpoint_of_not_spells none).symm.trans read
  · rintro ⟨port, spelled, value⟩
    rw [splitEndpoint_number spelled value, String.ofList_toList]

end Split

/-- What is read from an endpoint is what its notation says, and what is printed is read back. -/
theorem splitEndpoint_exact :
    (∀ s name n, splitEndpoint s = .ok (name, n) ↔
      ∃ port, Spells s name.toList port ∧ Numbers port n) ∧
    (∀ s host port, Spells s host port → (∀ n, ¬ Numbers port n) →
      splitEndpoint s = .error (.number (String.ofList port))) ∧
    (∀ s, (∀ host port, ¬ Spells s host port) →
      splitEndpoint s = .error (.address (String.ofList s))) ∧
    (∀ (name : String) (n : UInt16), name ≠ "" → name.toList.head? ≠ some '[' →
      splitEndpoint (name ++ ":" ++ toString n.toNat).toList = .ok (name, n)) ∧
    ∀ (name : String) (n : UInt16), name ≠ "" → ']' ∉ name.toList →
      splitEndpoint ("[" ++ name ++ "]:" ++ toString n.toNat).toList = .ok (name, n) := by
  have digits (n : UInt16) : (toString n.toNat).toList = Nat.toDigits 10 n.toNat := by
    rw [Nat.toString_eq_repr, Nat.toList_repr]
  have letters {name : String} (nonempty : name ≠ "") : name.toList ≠ [] :=
    mt String.toList_eq_nil_iff.1 nonempty
  refine ⟨fun s name n => splitEndpoint_eq_ok_iff, fun s host port spelled noNumber => ?_,
    fun s => splitEndpoint_of_not_spells, fun name n nonempty bare => ?_,
    fun name n nonempty closed => ?_⟩
  · refine splitEndpoint_noNumber spelled (Option.eq_none_iff_forall_ne_some.2 fun n value => ?_)
    exact noNumber n (uint16?_eq_some_iff.1 value)
  · simpa [digits] using splitEndpoint_bare (letters nonempty) bare n
  · simpa [digits] using splitEndpoint_inBrackets (letters nonempty) closed n

theorem splitEndpoint_abbreviated :
    ((Spells ":::*".toList "::".toList "*".toList ∧ ∀ n, ¬ Numbers "*".toList n) ∧
      splitEndpoint ":::*".toList = .error (.number "*")) ∧
    ((∀ host port, ¬ Spells "[::1]631".toList host port) ∧
      splitEndpoint "[::1]631".toList = .error (.address "[::1]631")) ∧
    (("::" ≠ "" ∧ "::".toList.head? ≠ some '[') ∧
      splitEndpoint ("::" ++ ":" ++ toString (22 : UInt16).toNat).toList = .ok ("::", 22)) ∧
    (("::" ≠ "" ∧ ']' ∉ "::".toList) ∧
      splitEndpoint ("[" ++ "::" ++ "]:" ++ toString (22 : UInt16).toNat).toList =
        .ok ("::", 22)) := by
  have spelled : Spells ":::*".toList "::".toList "*".toList := by decide
  have noNumber : ∀ n, ¬ Numbers "*".toList n := fun n h => nomatch uint16?_eq_some_iff.2 h
  have noShape : ∀ host port, ¬ Spells "[::1]631".toList host port :=
    fun host port h => nomatch (spells_iff.1 h).2
  have nonempty : "::" ≠ "" := by decide
  have bare : "::".toList.head? ≠ some '[' := by decide
  have closed : ']' ∉ "::".toList := by decide
  obtain ⟨-, number, address, printed, bracketed⟩ := splitEndpoint_exact
  exact ⟨⟨⟨spelled, noNumber⟩, number _ _ _ spelled noNumber⟩,
    ⟨noShape, address _ noShape⟩, ⟨⟨nonempty, bare⟩, printed "::" 22 nonempty bare⟩,
    ⟨nonempty, closed⟩, bracketed "::" 22 nonempty closed⟩

end FleetPosture.Socket
