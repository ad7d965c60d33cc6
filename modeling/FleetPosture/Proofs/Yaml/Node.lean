import FleetPosture.Yaml.Node

/-! Trees out of the tokens of records: scalars, mappings of named fields, and sequences, which have no
indentation of their own and stand as brackets when they are empty. -/

namespace FleetPosture.Yaml.Node

section Steps

variable {t u : Token} {ts : List Token} {handles : List (String × String)} {anchors : List (String × Nat)}

@[simp]
theorem peek_run : peek.run ⟨t :: ts, handles, anchors⟩ = some (t, ⟨t :: ts, handles, anchors⟩) := rfl

@[simp]
theorem skip_run : skip.run ⟨t :: ts, handles, anchors⟩ = some ((), ⟨ts, handles, anchors⟩) := rfl

@[simp]
theorem accept_run_self :
    (accept t).run ⟨t :: ts, handles, anchors⟩ = some (true, ⟨ts, handles, anchors⟩) := by
  simp [accept]

theorem accept_run_of_ne (h : u ≠ t) :
    (accept t).run ⟨u :: ts, handles, anchors⟩ = some (false, ⟨u :: ts, handles, anchors⟩) := by
  simp [accept, h]

@[simp]
theorem nextIs_run (us : List Token) :
    (nextIs us).run ⟨t :: ts, handles, anchors⟩ = some (us.contains t, ⟨t :: ts, handles, anchors⟩) := by
  simp [nextIs]

theorem properties_run (anchor : ∀ name, t ≠ .anchor name) (tag : ∀ handle suffix, t ≠ .tag handle suffix) :
    properties.run ⟨t :: ts, handles, anchors⟩ = some ((none, none), ⟨t :: ts, handles, anchors⟩) := by
  cases t with
  | anchor name => exact absurd rfl (anchor name)
  | tag handle suffix => exact absurd rfl (tag handle suffix)
  | _ => rfl

theorem readNode_scalar (fuel : Nat) (block indentless : Bool) (text : String) (style : Style) :
    (readNode (fuel + 1) block indentless).run ⟨.scalar text style :: ts, handles, anchors⟩ =
      some (.scalar none style text, ⟨ts, handles, anchors⟩) := by
  rw [readNode]
  simp [properties_run, mark]

theorem readNode_brackets (fuel : Nat) (block indentless : Bool) :
    (readNode (fuel + 2) block indentless).run
        ⟨.flowSequence :: .flowSequenceEnd :: ts, handles, anchors⟩ =
      some (.sequence none [], ⟨ts, handles, anchors⟩) := by
  rw [readNode]
  simp [properties_run, mark, readFlowItems]

theorem readNode_mapping (fuel : Nat) (indentless : Bool) :
    (readNode (fuel + 1) true indentless).run ⟨.blockMapping :: ts, handles, anchors⟩ =
      (((readBlockPairs fuel).run ⟨ts, handles, anchors⟩).map
        fun (pairs, r) => (.mapping none pairs, r)) := by
  rw [readNode]
  simp [properties_run, mark]

theorem readNode_items (fuel : Nat) :
    (readNode (fuel + 1) true true).run ⟨.blockEntry :: ts, handles, anchors⟩ =
      (((readIndentless fuel).run ⟨.blockEntry :: ts, handles, anchors⟩).map
        fun (items, r) => (.sequence none items, r)) := by
  rw [readNode]
  simp [properties_run, mark]

end Steps

/-- The tokens are read as the node, as the value of a field or else as an item. A sequence without
indentation can only be a value, and ends where no item follows. -/
structure Reads (value : Bool) (ts : List Token) (n : Node) : Prop where
  begins : ∃ t, ts.head? = some t ∧ t ∉ [.key, .value, .blockEnd] ∧ (value = false → t ≠ .blockEntry)
  read : ∀ fuel, 3 * ts.length ≤ fuel → ∀ t rest, (value = true → t ≠ .blockEntry) →
    ∀ handles anchors, (readNode fuel true value).run ⟨ts ++ t :: rest, handles, anchors⟩ =
      some (n, ⟨t :: rest, handles, anchors⟩)

theorem reads_scalar (value : Bool) (text : String) (style : Style) :
    Reads value [.scalar text style] (.scalar none style text) where
  begins := ⟨_, rfl, by simp, by simp⟩
  read := by
    intro fuel enough t rest _ handles anchors
    obtain ⟨fuel, rfl⟩ := Nat.exists_eq_add_of_le' (Nat.le_trans (by decide : 1 ≤ 3) enough)
    exact readNode_scalar fuel true value text style

theorem reads_brackets (value : Bool) :
    Reads value [.flowSequence, .flowSequenceEnd] (.sequence none []) where
  begins := ⟨_, rfl, by simp, by simp⟩
  read := by
    intro fuel enough t rest _ handles anchors
    obtain ⟨fuel, rfl⟩ := Nat.exists_eq_add_of_le' (Nat.le_trans (by decide : 2 ≤ 6) enough)
    exact readNode_brackets fuel true value

structure Field where
  name : String
  tokens : List Token
  node : Node

namespace Field

def all (f : Field) : List Token := .key :: .scalar f.name .plain :: .value :: f.tokens

def pair (f : Field) : Node × Node := (.scalar none .plain f.name, f.node)

end Field

section Collections

variable (fuel : Nat) (handles : List (String × String)) (anchors : List (String × Nat))

theorem readBlockPart_run {ts : List Token} {n : Node} (h : Reads true ts n)
    (enough : 3 * ts.length < fuel) {t : Token} (ends : t ≠ .blockEntry) (rest : List Token) :
    (readBlockPart fuel).run ⟨ts ++ t :: rest, handles, anchors⟩ =
      some (n, ⟨t :: rest, handles, anchors⟩) := by
  obtain ⟨fuel, rfl⟩ : ∃ k, fuel = k + 1 := ⟨fuel - 1, by omega⟩
  obtain ⟨first, head, other, -⟩ := h.begins
  have read := h.read fuel (by omega) t rest (fun _ => ends) handles anchors
  obtain ⟨ts, rfl⟩ := List.head?_eq_some_iff.1 head
  rw [List.cons_append] at read ⊢
  rw [readBlockPart]
  simp [other, read]

theorem readBlockPairs_run {fields : List Field} (h : ∀ f ∈ fields, Reads true f.tokens f.node)
    (enough : 3 * (fields.flatMap Field.all).length < fuel) (rest : List Token) :
    (readBlockPairs fuel).run ⟨fields.flatMap Field.all ++ .blockEnd :: rest, handles, anchors⟩ =
      some (fields.map Field.pair, ⟨rest, handles, anchors⟩) := by
  induction fields generalizing fuel with
  | nil =>
    obtain ⟨fuel, rfl⟩ := Nat.exists_eq_add_of_lt enough
    rw [readBlockPairs]
    simp [accept_run_of_ne, expect]
  | cons f fields ih =>
    obtain ⟨hf, hfields⟩ := List.forall_mem_cons.1 h
    simp only [List.flatMap_cons, List.length_append, Field.all, List.length_cons] at enough
    obtain ⟨fuel, rfl⟩ : ∃ k, fuel = k + 1 := ⟨fuel - 1, by omega⟩
    obtain ⟨t, after, next, ends⟩ : ∃ t after, fields.flatMap Field.all ++ .blockEnd :: rest = t :: after ∧
        t ≠ .blockEntry := by
      cases fields with
      | nil => exact ⟨_, _, rfl, by decide⟩
      | cons g gs => exact ⟨_, _, rfl, by decide⟩
    have key := readBlockPart_run fuel handles anchors (reads_scalar true f.name .plain)
      (by rw [List.length_singleton]; omega) (t := .value) (by decide) (f.tokens ++ (t :: after))
    have value := readBlockPart_run fuel handles anchors hf (by omega) ends after
    have others := ih fuel hfields (by omega)
    rw [List.singleton_append] at key
    rw [next] at others
    rw [readBlockPairs]
    simp [Field.all, next, key, value, others, Field.pair]

def mappingTokens (fields : List Field) : List Token :=
  .blockMapping :: (fields.flatMap Field.all ++ [.blockEnd])

def mappingNode (fields : List Field) : Node := .mapping none (fields.map Field.pair)

theorem reads_mapping (value : Bool) {fields : List Field} (h : ∀ f ∈ fields, Reads true f.tokens f.node) :
    Reads value (mappingTokens fields) (mappingNode fields) where
  begins := ⟨_, rfl, by simp, by simp⟩
  read := by
    intro fuel enough t rest _ handles anchors
    simp only [mappingTokens, List.length_cons, List.length_append, List.length_nil] at enough
    obtain ⟨fuel, rfl⟩ : ∃ k, fuel = k + 1 := ⟨fuel - 1, by omega⟩
    have pairs := readBlockPairs_run fuel handles anchors h (by omega) (t :: rest)
    rw [mappingTokens, List.cons_append, List.append_assoc, List.singleton_append, readNode_mapping, pairs]
    rfl

theorem readIndentless_run {α : Type} {tokens : α → List Token} {node : α → Node} {items : List α}
    (h : ∀ a ∈ items, Reads false (tokens a) (node a)) (some_fuel : 0 < fuel)
    (enough : 3 * (items.flatMap fun a => .blockEntry :: tokens a).length ≤ fuel + 1) {t : Token}
    (ends : t ≠ .blockEntry) (rest : List Token) :
    (readIndentless fuel).run
        ⟨(items.flatMap fun a => .blockEntry :: tokens a) ++ t :: rest, handles, anchors⟩ =
      some (items.map node, ⟨t :: rest, handles, anchors⟩) := by
  obtain ⟨fuel, rfl⟩ : ∃ k, fuel = k + 1 := ⟨fuel - 1, by omega⟩
  induction items generalizing fuel with
  | nil =>
    rw [readIndentless]
    simp [accept_run_of_ne ends]
  | cons a items ih =>
    obtain ⟨ha, hitems⟩ := List.forall_mem_cons.1 h
    obtain ⟨first, head, other, entry⟩ := ha.begins
    obtain ⟨u, after, next⟩ : ∃ u after,
        (items.flatMap fun a => .blockEntry :: tokens a) ++ t :: rest = u :: after := by
      cases items with
      | nil => exact ⟨_, _, rfl⟩
      | cons b items => exact ⟨_, _, rfl⟩
    obtain ⟨more, split⟩ := List.head?_eq_some_iff.1 head
    simp only [List.flatMap_cons, List.length_append, List.length_cons, split] at enough
    obtain ⟨fuel, rfl⟩ : ∃ k, fuel = k + 1 := ⟨fuel - 1, by omega⟩
    have item :=
      ha.read (fuel + 1) (by rw [split, List.length_cons]; omega) u after (by simp) handles anchors
    have others := ih hitems fuel (Nat.succ_pos _) (by omega)
    rw [split, List.cons_append] at item
    rw [next] at others
    rw [readIndentless]
    simp only [List.mem_cons, List.not_mem_nil, or_false, not_or] at other
    simp [next, split, other, entry rfl, item, others]

end Collections

def sequenceTokens {α : Type} (tokens : α → List Token) (items : List α) : List Token :=
  if items.isEmpty then [.flowSequence, .flowSequenceEnd]
  else items.flatMap fun a => .blockEntry :: tokens a

theorem reads_sequence {α : Type} {tokens : α → List Token} {node : α → Node} {items : List α}
    (h : ∀ a ∈ items, Reads false (tokens a) (node a)) :
    Reads true (sequenceTokens tokens items) (.sequence none (items.map node)) := by
  cases items with
  | nil => exact reads_brackets true
  | cons a items =>
    refine ⟨⟨_, rfl, by simp, fun e => absurd e (by decide)⟩, ?_⟩
    intro fuel enough t rest ends handles anchors
    have some_fuel : 2 ≤ fuel := by
      simp only [sequenceTokens, List.isEmpty_cons, Bool.false_eq_true, if_false, List.flatMap_cons,
        List.length_append, List.length_cons] at enough
      omega
    obtain ⟨fuel, rfl⟩ : ∃ k, fuel = k + 1 := ⟨fuel - 1, by omega⟩
    have read := readIndentless_run fuel handles anchors h (by omega) enough (ends rfl) rest
    exact (readNode_items fuel).trans (congrArg (Option.map _) read)

theorem ofTokens?_blockMapping (ts : List Token) :
    ofTokens? (.blockMapping :: ts) =
      ((readNode (4 * (ts.length + 1 + 1)) true false).run ⟨.blockMapping :: ts, standardHandles, []⟩).bind
        fun (root, after) =>
          if after.tokens.dropWhile (· = .documentEnd) = [.streamEnd] then some (some root) else none := by
  simp [ofTokens?, readDirectives]

theorem ofTokens?_mapping {fields : List Field} (h : ∀ f ∈ fields, Reads true f.tokens f.node) :
    ofTokens? (mappingTokens fields ++ [.streamEnd]) = some (some (mappingNode fields)) := by
  have root (fuel : Nat) (enough : 3 * (mappingTokens fields).length ≤ fuel) :=
    (reads_mapping false h).read fuel enough .streamEnd [] (fun e => absurd e (by decide)) standardHandles []
  unfold mappingTokens at root ⊢
  rw [List.cons_append, ofTokens?_blockMapping, ← List.cons_append, root]
  · rfl
  · simp only [List.length_cons, List.length_append, List.length_nil]
    omega

mutual

def names : Node → List String
  | .sequence _ items => namesInItems items
  | .mapping _ pairs => namesInPairs pairs
  | .anchored _ n => n.names
  | _ => []

def namesInItems : List Node → List String
  | [] => []
  | n :: ns => n.names ++ namesInItems ns

def namesInPairs : List (Node × Node) → List String
  | [] => []
  | (.scalar _ _ name, v) :: ps => name :: (v.names ++ namesInPairs ps)
  | (k, v) :: ps => k.names ++ (v.names ++ namesInPairs ps)

end

theorem names_scalar (style : Style) (text : String) : (scalar none style text).names = [] := by
  rw [names] <;> simp

theorem names_mappingNode (fields : List Field) :
    (mappingNode fields).names = fields.flatMap fun f => f.name :: f.node.names := by
  rw [mappingNode, names]
  induction fields with
  | nil => rfl
  | cons f fields ih =>
    rw [List.map_cons, Field.pair, namesInPairs, ih, List.flatMap_cons, List.cons_append]

theorem names_sequence {α : Type} (node : α → Node) (items : List α) :
    (sequence none (items.map node)).names = items.flatMap fun a => (node a).names := by
  rw [names]
  induction items with
  | nil => rfl
  | cons a items ih => rw [List.map_cons, namesInItems, ih, List.flatMap_cons]

end FleetPosture.Yaml.Node
