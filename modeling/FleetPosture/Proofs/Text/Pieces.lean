import FleetPosture.Text.Pieces

/-! Cutting at separators finds the stretches that were put between them: `pieces` is the library's
`splitOnP`, and what is known of that holds of it. -/

namespace FleetPosture.Text

variable {α : Type} {p : α → Bool}

theorem pieces_eq_splitOnP (p : α → Bool) (s : List α) : pieces p s = s.splitOnP p := by
  induction s with
  | nil => rfl
  | cons c cs ih =>
    rw [pieces, List.splitOnP_cons_eq_if_modifyHead, ih]
    split
    · rfl
    · obtain ⟨w, ws, first⟩ := List.exists_cons_of_ne_nil (List.splitOnP_ne_nil p cs)
      rw [first, List.modifyHead_cons]

theorem pieces_of_forall_not {a : List α} (h : ∀ c ∈ a, p c = false) : pieces p a = [a] := by
  rw [pieces_eq_splitOnP, List.splitOnP_eq_singleton h]

theorem pieces_append {a : List α} (h : ∀ c ∈ a, p c = false) {sep : α} (hs : p sep) (b : List α) :
    pieces p (a ++ sep :: b) = a :: pieces p b := by
  rw [pieces_eq_splitOnP, pieces_eq_splitOnP, List.splitOnP_append_cons_of_forall_mem h sep hs]

theorem pieces_ne_nil (s : List α) : pieces p s ≠ [] := by
  rw [pieces_eq_splitOnP]
  exact List.splitOnP_ne_nil p s

theorem exists_pieces_cons {c : α} (hc : p c = false) (s : List α) :
    ∃ w ws, pieces p (c :: s) = (c :: w) :: ws := by
  rw [pieces, if_neg (by simp [hc])]
  split
  · exact ⟨_, _, rfl⟩
  · exact ⟨_, _, rfl⟩

theorem not_of_mem_pieces {s w : List α} (hw : w ∈ pieces p s) : ∀ c ∈ w, p c = false := by
  induction s generalizing w with
  | nil => rw [List.mem_singleton.1 hw]; exact List.forall_mem_nil _
  | cons c cs ih =>
    rw [pieces] at hw
    split at hw
    · rcases List.mem_cons.1 hw with rfl | hw
      · exact List.forall_mem_nil _
      · exact ih hw
    · next hc =>
      obtain ⟨w', ws, first⟩ := List.exists_cons_of_ne_nil (pieces_ne_nil (p := p) cs)
      rw [first] at hw
      rcases List.mem_cons.1 hw with rfl | hw
      · have head : ∀ d ∈ w', p d = false := ih (first ▸ List.mem_cons_self)
        exact List.forall_mem_cons.2 ⟨Bool.eq_false_iff.2 hc, head⟩
      · exact ih (first ▸ List.mem_cons_of_mem _ hw)

theorem length_pieces (p : α → Bool) (s : List α) : (pieces p s).length = s.countP p + 1 := by
  induction s with
  | nil => rfl
  | cons c cs ih =>
    rw [pieces, List.countP_cons]
    split
    · rw [List.length_cons, ih]
    · split
      case h_1 none => exact absurd none (pieces_ne_nil cs)
      case h_2 w ws first =>
        rw [first] at ih
        exact ih

theorem pieces_flatMap {xs : List (List α)} {sep : α} (h : ∀ x ∈ xs, ∀ c ∈ x, p c = false)
    (hs : p sep) : pieces p (xs.flatMap (· ++ [sep])) = xs ++ [[]] := by
  induction xs with
  | nil => rfl
  | cons x xs ih =>
    obtain ⟨hx, hxs⟩ := List.forall_mem_cons.1 h
    rw [List.flatMap_cons, List.append_assoc, List.singleton_append, pieces_append hx hs, ih hxs,
      List.cons_append]

theorem pieces_intercalate {ws : List (List α)} {sep : α} (h : ∀ w ∈ ws, ∀ c ∈ w, p c = false)
    (hs : p sep) (nonempty : ws ≠ []) : pieces p ([sep].intercalate ws) = ws := by
  induction ws with
  | nil => exact absurd rfl nonempty
  | cons w ws ih =>
    obtain ⟨hw, hws⟩ := List.forall_mem_cons.1 h
    cases ws with
    | nil => rw [List.intercalate_singleton, pieces_of_forall_not hw]
    | cons v vs =>
      rw [List.intercalate_cons_cons, List.append_assoc, List.singleton_append,
        pieces_append hw hs, ih hws (List.cons_ne_nil v vs)]

theorem forall_mem_intercalate {q : α → Prop} {ws : List (List α)} {sep : α}
    (h : ∀ w ∈ ws, ∀ c ∈ w, q c) (hs : q sep) : ∀ c ∈ [sep].intercalate ws, q c := by
  induction ws with
  | nil => exact List.forall_mem_nil _
  | cons w ws ih =>
    obtain ⟨hw, hws⟩ := List.forall_mem_cons.1 h
    cases ws with
    | nil => rwa [List.intercalate_singleton]
    | cons v vs =>
      rw [List.intercalate_cons_cons, List.forall_mem_append, List.forall_mem_append]
      exact ⟨⟨hw, List.forall_mem_singleton.2 hs⟩, ih hws⟩

theorem intercalate_sublist {ws vs : List (List α)} (h : ws.Sublist vs) (sep : List α) :
    (sep.intercalate ws).Sublist (sep.intercalate vs) := by
  induction h with
  | slnil => exact .refl _
  | @cons ws vs v h ih =>
    cases vs with
    | nil =>
      rw [List.sublist_nil.1 h, List.intercalate_nil]
      exact List.nil_sublist _
    | cons w vs =>
      rw [List.intercalate_cons_cons]
      exact ih.trans (List.sublist_append_right _ _)
  | @cons_cons ws vs v h ih =>
    by_cases none_left : ws = []
    · rw [none_left, List.intercalate_singleton]
      cases vs with
      | nil => simp only [List.intercalate_singleton, List.Sublist.refl]
      | cons w vs =>
        rw [List.intercalate_cons_cons, List.append_assoc]
        exact List.sublist_append_left _ _
    · have more : vs ≠ [] := by
        rintro rfl
        exact none_left (List.sublist_nil.1 h)
      rw [List.intercalate_cons_of_ne_nil none_left, List.intercalate_cons_of_ne_nil more]
      exact (List.Sublist.refl _).append ih

theorem intercalate_pieces [BEq α] [LawfulBEq α] (sep : α) (s : List α) :
    [sep].intercalate (pieces (· == sep) s) = s := by
  rw [pieces_eq_splitOnP]
  exact List.intercalate_splitOn sep

theorem stripReturn_of_not_mem {line : List Char} (h : '\r' ∉ line) : stripReturn line = line := by
  rw [stripReturn, if_neg]
  exact fun last => h (List.mem_of_getLast? last)

theorem lines_append {line : List Char} (h : '\n' ∉ line) (rest : List Char) :
    lines (line ++ '\n' :: rest) = stripReturn line :: lines rest := by
  have parts : pieces (· == '\n') (line ++ '\n' :: rest) = line :: pieces (· == '\n') rest := by
    refine pieces_append (fun c hc => ?_) rfl rest
    rw [beq_eq_false_iff_ne]
    rintro rfl
    exact h hc
  have more : pieces (· == '\n') rest ≠ [] := pieces_ne_nil rest
  simp only [lines, parts, List.dropLast_cons_of_ne_nil more, List.map_cons, List.cons_append,
    List.getLast?_cons_of_ne_nil more]

def OneLine (s : List Char) : Prop := '\n' ∉ s ∧ '\r' ∉ s

instance (s : List Char) : Decidable (OneLine s) := inferInstanceAs (Decidable (_ ∧ _))

theorem cutFirst?_append {c : Char} {a : List Char} (h : c ∉ a) (b : List Char) :
    cutFirst? c (a ++ c :: b) = some (a, b) := by
  induction a with
  | nil => rw [List.nil_append, cutFirst?, if_pos rfl]
  | cons x xs ih =>
    obtain ⟨hx, hxs⟩ := List.ne_and_not_mem_of_not_mem_cons h
    rw [List.cons_append, cutFirst?, if_neg hx.symm, ih hxs, Option.map_some]

theorem cutFirst?_of_not_mem {c : Char} {s : List Char} (h : c ∉ s) : cutFirst? c s = none := by
  induction s with
  | nil => rfl
  | cons x xs ih =>
    obtain ⟨hx, hxs⟩ := List.ne_and_not_mem_of_not_mem_cons h
    rw [cutFirst?, if_neg hx.symm, ih hxs, Option.map_none]

theorem cutFirst?_eq_some_iff {c : Char} {s a b : List Char} :
    cutFirst? c s = some (a, b) ↔ s = a ++ c :: b ∧ c ∉ a := by
  constructor
  · intro cut
    by_cases hc : c ∈ s
    · obtain ⟨front, back, rfl, free⟩ := List.eq_append_cons_of_mem hc
      rw [cutFirst?_append free] at cut
      obtain ⟨rfl, rfl⟩ := Prod.mk.inj (Option.some.inj cut)
      exact ⟨rfl, free⟩
    · rw [cutFirst?_of_not_mem hc] at cut
      exact absurd cut (Option.some_ne_none _).symm
  · rintro ⟨rfl, free⟩
    exact cutFirst?_append free b

theorem cutLast?_of_not_mem {c : Char} {s : List Char} (h : c ∉ s) : cutLast? c s = none := by
  induction s with
  | nil => rfl
  | cons x xs ih =>
    obtain ⟨hx, hxs⟩ := List.ne_and_not_mem_of_not_mem_cons h
    rw [cutLast?, ih hxs]
    exact if_neg hx.symm

theorem cutLast?_append {c : Char} (a : List Char) {b : List Char} (h : c ∉ b) :
    cutLast? c (a ++ c :: b) = some (a, b) := by
  induction a with
  | nil =>
    rw [List.nil_append, cutLast?, cutLast?_of_not_mem h]
    exact if_pos rfl
  | cons x xs ih => rw [List.cons_append, cutLast?, ih]

theorem cutLast?_eq_some_iff {c : Char} {s a b : List Char} :
    cutLast? c s = some (a, b) ↔ s = a ++ c :: b ∧ c ∉ b := by
  constructor
  · intro cut
    by_cases hc : c ∈ s
    · -- the last of the text is the first from behind
      obtain ⟨back, front, split, free⟩ := List.eq_append_cons_of_mem (List.mem_reverse.2 hc)
      have whole : s = front.reverse ++ c :: back.reverse := by
        rw [← List.reverse_reverse s, split, List.reverse_append, List.reverse_cons,
          List.append_assoc, List.singleton_append]
      have last : c ∉ back.reverse := fun h => free (List.mem_reverse.1 h)
      rw [whole, cutLast?_append _ last] at cut
      obtain ⟨rfl, rfl⟩ := Prod.mk.inj (Option.some.inj cut)
      exact ⟨whole, last⟩
    · rw [cutLast?_of_not_mem hc] at cut
      exact absurd cut (Option.some_ne_none _).symm
  · rintro ⟨rfl, free⟩
    exact cutLast?_append a free

end FleetPosture.Text
