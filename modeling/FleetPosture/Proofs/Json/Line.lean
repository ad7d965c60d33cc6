import FleetPosture.Proofs.Json.RoundTrip

/-! The compact text of a value is a single line: control characters are all escaped. -/

namespace FleetPosture.Json

def Printable (s : List Char) : Prop := ∀ c ∈ s, 0x20 ≤ c.toNat

namespace Printable

theorem nil : Printable [] := List.forall_mem_nil _

theorem cons {c : Char} {s : List Char} (hc : 0x20 ≤ c.toNat) (hs : Printable s) :
    Printable (c :: s) := List.forall_mem_cons.2 ⟨hc, hs⟩

theorem append {a b : List Char} (ha : Printable a) (hb : Printable b) : Printable (a ++ b) :=
  List.forall_mem_append.2 ⟨ha, hb⟩

theorem of_all {s : List Char} (h : s.all (fun c => decide (0x20 ≤ c.toNat)) = true) :
    Printable s := by
  intro c hc
  exact of_decide_eq_true (List.all_eq_true.1 h c hc)

theorem not_mem {s : List Char} (h : Printable s) {c : Char} (control : c.toNat < 0x20) : c ∉ s :=
  fun hc => Nat.not_le.2 control (h c hc)

end Printable

theorem printable_escapedChar (c : Char) : Printable (escapedChar c) := by
  have short {d : Char} (h : 0x20 ≤ d.toNat) : Printable ['\\', d] :=
    .cons (by decide) (.cons h .nil)
  have digits : ∀ n < 16, 0x20 ≤ (Nat.digitChar n).toNat := by decide
  unfold escapedChar
  iterate 7
    split
    · exact short (by decide)
  split
  case isTrue control =>
    have high := digits (c.toNat / 16) (by omega)
    have low := digits (c.toNat % 16) (by omega)
    exact (short (d := 'u') (by decide)).append
      (.cons (by decide) (.cons (by decide) (.cons high (.cons low .nil))))
  case isFalse printable => exact .cons (Nat.le_of_not_lt printable) .nil

theorem printable_stringChars (s : String) : Printable (stringChars s) := by
  refine .append (.cons (by decide) ?_) (.cons (by decide) .nil)
  intro c hc
  obtain ⟨d, -, hd⟩ := List.mem_flatMap.1 hc
  exact printable_escapedChar d c hd

theorem printable_integerChars (n : Int) : Printable (integerChars n) := by
  have controls : ∀ m < 0x20, isWordChar (Char.ofNat m) = false := by decide
  intro c hc
  refine Nat.le_of_not_lt fun control => ?_
  have other := controls c.toNat control
  rw [Char.ofNat_toNat, isWordChar_of_mem_integerChars hc] at other
  exact absurd other (by decide)

theorem printable_items {items : List Json} (h : ∀ v ∈ items, Printable (compactChars v)) :
    Printable (compactItems items) := by
  induction items with
  | nil => exact .nil
  | cons v vs ih =>
    obtain ⟨hv, hvs⟩ := List.forall_mem_cons.1 h
    cases vs with
    | nil => exact hv
    | cons w vs => exact hv.append (.cons (by decide) (ih hvs))

theorem printable_fields {fields : List (String × Json)}
    (h : ∀ f ∈ fields, Printable (compactChars f.2)) : Printable (compactFields fields) := by
  induction fields with
  | nil => exact .nil
  | cons f fs ih =>
    obtain ⟨k, v⟩ := f
    obtain ⟨hv, hfs⟩ := List.forall_mem_cons.1 h
    have member := (printable_stringChars k).append (.cons (c := ':') (by decide) hv)
    cases fs with
    | nil => exact member
    | cons g fs => exact member.append (.cons (c := ',') (by decide) (ih hfs))

theorem Plain.printable {v : Json} (plain : Plain v) : Printable (compactChars v) := by
  induction plain with
  | null => exact .of_all (by decide)
  | bool b => cases b <;> exact .of_all (by decide)
  | integer => exact printable_integerChars _
  | string s => exact printable_stringChars s
  | array _ ih => exact .cons (by decide) ((printable_items ih).append (.cons (by decide) .nil))
  | object _ ih => exact .cons (by decide) ((printable_fields ih).append (.cons (by decide) .nil))

end FleetPosture.Json
