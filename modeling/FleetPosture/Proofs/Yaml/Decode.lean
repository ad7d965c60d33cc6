import FleetPosture.Proofs.Text.Numeral
import FleetPosture.Proofs.Yaml.Node
import FleetPosture.Yaml.Decode

/-! Values out of the nodes of records: texts by any scalar, numbers by plain numerals, sequences item by
item, and the fields of a mapping by their names. -/

namespace FleetPosture.Yaml

theorem eq_nil_of_toDigits {n : Nat} {r : List Char} (h : Nat.toDigits 10 n = '0' :: r) : r = [] := by
  induction n using Nat.strongRecOn generalizing r with
  | ind n ih =>
    by_cases small : n < 10
    · rw [Nat.toDigits_of_lt_base small] at h
      exact (List.cons.inj h).2.symm
    · have large : 10 ≤ n := Nat.le_of_not_lt small
      rw [Nat.toDigits_of_base_le (by decide) large] at h
      obtain ⟨first, more, front⟩ := List.exists_cons_of_ne_nil (Nat.toDigits_ne_nil (b := 10) (n := n / 10))
      rw [front, List.cons_append] at h
      obtain ⟨rfl, rfl⟩ := List.cons.inj h
      have zero : Nat.toDigits 10 (n / 10) = Nat.toDigits 10 0 := by
        rw [front, ih (n / 10) (by omega) front]
        rfl
      have same : n / 10 = 0 := Option.some.inj
        ((Text.digits?_toDigits (by decide) (by decide) (n / 10)).symm.trans
          ((congrArg (Text.digits? 10) zero).trans (Text.digits?_toDigits (by decide) (by decide) 0)))
      omega

theorem hasLeadingZero_toDigits (n : Nat) : hasLeadingZero (Nat.toDigits 10 n) = false := by
  have unsigned (c : Char) (hc : c.isDigit = false) (r : List Char) : Nat.toDigits 10 n ≠ c :: r :=
    fun e => Text.not_mem_toDigits hc n (e ▸ List.mem_cons_self)
  unfold hasLeadingZero
  split
  case h_1 r e => exact absurd e (unsigned '+' rfl r)
  case h_2 r e => exact absurd e (unsigned '-' rfl r)
  case h_3 =>
    dsimp only
    split
    case h_1 r e => rw [eq_nil_of_toDigits e]; rfl
    case h_2 => rfl

theorem natural?_toDigits (n : Nat) : natural? (Nat.toDigits 10 n) = some n := by
  have value : Text.digits? 10 (Nat.toDigits 10 n) = some n :=
    Text.digits?_toDigits (by decide) (by decide) n
  have magnitude : magnitude? (Nat.toDigits 10 n) = some n := by
    unfold magnitude?
    split
    case h_1 ds e => exact absurd (e ▸ by simp) (Text.not_mem_toDigits (c := 'x') rfl n)
    case h_2 ds e => exact absurd (e ▸ by simp) (Text.not_mem_toDigits (c := 'o') rfl n)
    case h_3 ds e => exact absurd (e ▸ by simp) (Text.not_mem_toDigits (c := 'b') rfl n)
    case h_4 => rw [hasLeadingZero_toDigits, if_neg Bool.false_ne_true, value]
  unfold natural?
  split
  case h_1 ds e => exact absurd (e ▸ by simp) (Text.not_mem_toDigits (c := '+') rfl n)
  case h_2 => exact magnitude

namespace Place

variable (anchors : List (Nat × Node))

theorem text?_scalar (style : Style) (s : String) :
    (⟨anchors, .scalar none style s⟩ : Place).text? = some s := rfl

theorem natural?_toString {limit n : Nat} (h : n ≤ limit) :
    (⟨anchors, .scalar none .plain (toString n)⟩ : Place).natural? limit = some n := by
  have digits : (toString n).toList = Nat.toDigits 10 n := by rw [Nat.toString_eq_repr, Nat.toList_repr]
  change ((Yaml.natural? (toString n).toList).filter (· ≤ limit)) = some n
  rw [digits, natural?_toDigits, Option.filter_some, if_pos (decide_eq_true h)]

theorem list?_sequence {α β : Type} {item? : Place → Option β} {node : α → Node} (value : α → β)
    {items : List α} (h : ∀ a ∈ items, item? ⟨anchors, node a⟩ = some (value a)) :
    (⟨anchors, .sequence none (items.map node)⟩ : Place).list? item? = some (items.map value) := by
  change (items.map node).mapM (fun n => item? ⟨anchors, n⟩) = some (items.map value)
  induction items with
  | nil => rfl
  | cons a items ih =>
    obtain ⟨ha, hitems⟩ := List.forall_mem_cons.1 h
    rw [List.map_cons, List.mapM_cons, ha, ih hitems]
    rfl

theorem record?_mapping (fields : List Node.Field) (names : List String) :
    (⟨anchors, Node.mappingNode fields⟩ : Place).record? names =
      let known :=
        (fields.map fun f => (f.name, (⟨anchors, f.node⟩ : Place))).filter fun f => names.contains f.1
      if (known.map (·.1)).Nodup then some (names.map fun name => known.lookup name) else none := by
  have pairs : (fields.map Node.Field.pair).mapM (fun p : Node × Node => do
      some (← (⟨anchors, p.1⟩ : Place).text?, (⟨anchors, p.2⟩ : Place))) =
        some (fields.map fun f => (f.name, (⟨anchors, f.node⟩ : Place))) := by
    induction fields with
    | nil => rfl
    | cons f fields ih =>
      rw [List.map_cons, List.mapM_cons, ih]
      rfl
  unfold record?
  change ((fields.map Node.Field.pair).mapM (fun p : Node × Node => do
      some (← (⟨anchors, p.1⟩ : Place).text?, (⟨anchors, p.2⟩ : Place)))).bind _ = _
  rw [pairs]
  rfl

end Place
end FleetPosture.Yaml
