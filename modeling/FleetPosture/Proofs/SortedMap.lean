import FleetPosture.Collections

/-! Reading sorted maps after their entries have been altered. -/

namespace FleetPosture.SortedMap

variable {α : Type}

theorem lookup_cons_eq_ite (j k : String) (v : α) (es : List (String × α)) :
    ((k, v) :: es).lookup j = if j = k then some v else es.lookup j := by
  rw [List.lookup_cons]
  by_cases hj : j = k
  · rw [hj, beq_self_eq_true, if_pos rfl]
  · rw [beq_false_of_ne hj, if_neg hj]

theorem lookup_eq_none_of_lt {es : List (String × α)} {k : String} (h : ∀ e ∈ es, k < e.1) :
    es.lookup k = none := by
  rw [List.lookup_eq_none_iff]
  intro e he
  exact bne_iff_ne.2 fun heq => String.lt_irrefl _ (heq ▸ h e he)

theorem lookup_alterEntries {es : List (String × α)} (h : es.Pairwise fun a b => a.1 < b.1)
    (k j : String) (f : Option α → α) :
    (alterEntries k f es).lookup j = if j = k then some (f (es.lookup k)) else es.lookup j := by
  induction es with
  | nil => rw [alterEntries, lookup_cons_eq_ite, List.lookup_nil, List.lookup_nil]
  | cons e r ih =>
    obtain ⟨k', v⟩ := e
    obtain ⟨head, tail⟩ := List.pairwise_cons.1 h
    rw [alterEntries]
    split
    case isTrue hlt =>
      -- the key is below all others, so it was not there
      have fresh : List.lookup k ((k', v) :: r) = none := by
        apply lookup_eq_none_of_lt
        rintro e (_ | ⟨_, he⟩)
        · exact hlt
        · exact String.lt_trans hlt (head e he)
      rw [lookup_cons_eq_ite, fresh]
    case isFalse =>
      split
      case isTrue heq =>
        subst heq
        rw [lookup_cons_eq_ite, List.lookup_cons_self, lookup_cons_eq_ite]
        by_cases hj : j = k
        · rw [if_pos hj, if_pos hj]
        · rw [if_neg hj, if_neg hj, if_neg hj]
      case isFalse hne =>
        rw [lookup_cons_eq_ite, ih tail, lookup_cons_eq_ite k, if_neg hne, lookup_cons_eq_ite]
        by_cases hk' : j = k'
        · rw [if_pos hk', if_pos hk', if_neg fun h => hne (h.symm.trans hk')]
        · rw [if_neg hk', if_neg hk']

theorem get?_alter (m : SortedMap α) (k j : String) (f : Option α → α) :
    (m.alter k f).get? j = if j = k then some (f (m.get? k)) else m.get? j :=
  lookup_alterEntries m.sorted k j f

theorem entries_eq_nil_iff {m : SortedMap α} : m.entries = [] ↔ ∀ k, m.get? k = none := by
  constructor
  · intro h k
    rw [get?, h, List.lookup_nil]
  · intro h
    cases he : m.entries with
    | nil => rfl
    | cons e r =>
      have hk := h e.1
      rw [get?, he, List.lookup_cons_self] at hk
      exact absurd hk (by simp)

theorem nodup_keys (m : SortedMap α) : (m.entries.map (·.1)).Nodup := by
  refine List.pairwise_map.2 (m.sorted.imp fun h heq => ?_)
  exact String.lt_irrefl _ (heq ▸ h)

theorem mem_keys_iff {m : SortedMap α} {k : String} :
    k ∈ m.entries.map (·.1) ↔ (m.get? k).isSome := by
  rw [get?, List.lookup_isSome_iff, List.mem_map]
  simp only [beq_iff_eq, @eq_comm _ k]

theorem get?_of_mem {m : SortedMap α} {e : String × α} (he : e ∈ m.entries) :
    m.get? e.1 = some e.2 := by
  obtain ⟨before, after, split⟩ := List.append_of_mem he
  have others : ∀ b ∈ before, (e.1 != b.1) = true := by
    intro b hb
    have sorted := m.sorted
    rw [split, List.pairwise_append] at sorted
    have below := sorted.2.2 b hb e List.mem_cons_self
    exact bne_iff_ne.2 fun heq => String.lt_irrefl _ (heq ▸ below)
  rw [get?, split, List.lookup_append, List.lookup_eq_none_iff.2 others, List.lookup_cons_self,
    Option.none_or]

theorem alterEntries_append {es : List (String × α)} {k : String} (h : ∀ e ∈ es, e.1 < k)
    (f : Option α → α) (r : List (String × α)) :
    alterEntries k f (es ++ r) = es ++ alterEntries k f r := by
  induction es with
  | nil => rfl
  | cons e es ih =>
    obtain ⟨k', v⟩ := e
    obtain ⟨hk', hes⟩ := List.forall_mem_cons.1 h
    have notLt : ¬ k < k' := String.lt_asymm hk'
    have ne : k ≠ k' := fun heq => String.lt_irrefl _ (heq ▸ hk')
    rw [List.cons_append, alterEntries, if_neg notLt, if_neg ne, ih hes, List.cons_append]

theorem entries_alter_of_lt {m : SortedMap α} {k : String} (h : ∀ e ∈ m.entries, e.1 < k)
    (f : Option α → α) : (m.alter k f).entries = m.entries ++ [(k, f none)] := by
  have appended := alterEntries_append h f []
  rw [List.append_nil] at appended
  exact appended

theorem entries_alter_of_last {m : SortedMap α} {es : List (String × α)} {k : String} {v : α}
    (last : m.entries = es ++ [(k, v)]) (h : ∀ e ∈ es, e.1 < k) (f : Option α → α) :
    (m.alter k f).entries = es ++ [(k, f (some v))] := by
  show alterEntries k f m.entries = _
  rw [last, alterEntries_append h, alterEntries, if_neg (String.lt_irrefl k), if_pos rfl]

theorem entries_foldl_insert {es : List (String × α)} {m : SortedMap α}
    (sorted : (m.entries ++ es).Pairwise fun a b => a.1 < b.1) :
    (es.foldl (fun m e => m.insert e.1 e.2) m).entries = m.entries ++ es := by
  induction es generalizing m with
  | nil => simp
  | cons e es ih =>
    have above : ∀ x ∈ m.entries, x.1 < e.1 := fun x hx =>
      (List.pairwise_append.1 sorted).2.2 x hx e List.mem_cons_self
    have entries : (m.insert e.1 e.2).entries = m.entries ++ [e] := entries_alter_of_lt above _
    rw [List.foldl_cons, ih, entries, List.append_assoc, List.singleton_append]
    rw [entries, List.append_assoc]
    exact sorted

theorem ofList_entries (m : SortedMap α) : ofList m.entries = m :=
  ext_entries (entries_foldl_insert (m := empty) m.sorted)

end FleetPosture.SortedMap
