import Mathlib.Data.List.Basic

/-! Lists whose elements come one by one, those of each list in its order. What each list does before
something else it still does before it when they are interleaved. -/

namespace FleetPosture

variable {β : Type}

inductive Merges : List β → List β → List β → Prop
  | nil : Merges [] [] []
  | left {l r all : List β} {x : β} (rest : Merges l r all) : Merges (x :: l) r (x :: all)
  | right {l r all : List β} {x : β} (rest : Merges l r all) : Merges l (x :: r) (x :: all)

namespace Merges

variable {l r all : List β}

theorem nil_left (r : List β) : Merges [] r r := by
  induction r with
  | nil => exact .nil
  | cons _ _ ih => exact .right ih

theorem append (l r : List β) : Merges l r (l ++ r) := by
  induction l with
  | nil => exact nil_left r
  | cons _ _ ih => exact .left ih

theorem perm (h : Merges l r all) : all.Perm (l ++ r) := by
  induction h with
  | nil => exact .nil
  | left _ ih => exact ih.cons _
  | right _ ih => exact (ih.cons _).trans List.perm_middle.symm

theorem exists_of_prefix {front : List β} (h : Merges l r all) (sofar : front <+: all) :
    ∃ l' r', l' <+: l ∧ r' <+: r ∧ Merges l' r' front := by
  induction h generalizing front with
  | nil =>
    obtain rfl := List.prefix_nil.1 sofar
    exact ⟨[], [], List.nil_prefix, List.nil_prefix, .nil⟩
  | left rest ih =>
    obtain rfl | ⟨front, rfl, within⟩ := List.prefix_cons_iff.1 sofar
    · exact ⟨[], [], List.nil_prefix, List.nil_prefix, .nil⟩
    · obtain ⟨l', r', hl, hr, merged⟩ := ih within
      exact ⟨_ :: l', r', List.cons_prefix_cons.2 ⟨rfl, hl⟩, hr, .left merged⟩
  | right rest ih =>
    obtain rfl | ⟨front, rfl, within⟩ := List.prefix_cons_iff.1 sofar
    · exact ⟨[], [], List.nil_prefix, List.nil_prefix, .nil⟩
    · obtain ⟨l', r', hl, hr, merged⟩ := ih within
      exact ⟨l', _ :: r', hl, List.cons_prefix_cons.2 ⟨rfl, hr⟩, .right merged⟩

end Merges

inductive Interleaves : List (List β) → List β → Prop
  | nil : Interleaves [] []
  | cons {l : List β} {lists : List (List β)} {rest all : List β} (others : Interleaves lists rest)
      (merged : Merges l rest all) : Interleaves (l :: lists) all

namespace Interleaves

variable {lists front back : List (List β)} {all : List β}

theorem perm (h : Interleaves lists all) : all.Perm lists.flatten := by
  induction h with
  | nil => exact .nil
  | cons _ merged ih => exact merged.perm.trans (ih.append_left _)

theorem insert_nil (h : Interleaves (front ++ back) all) :
    Interleaves (front ++ [] :: back) all := by
  induction front generalizing all with
  | nil => exact .cons h (.nil_left all)
  | cons l front ih =>
    cases h with
    | cons others merged => exact .cons (ih others) merged

theorem step {x : β} {l : List β} (h : Interleaves (front ++ l :: back) all) :
    Interleaves (front ++ (x :: l) :: back) (x :: all) := by
  induction front generalizing all with
  | nil =>
    cases h with
    | cons others merged => exact .cons others (.left merged)
  | cons l' front ih =>
    cases h with
    | cons others merged => exact .cons (ih others) (.right merged)

end Interleaves

/-- At any time as many elements of the first kind have come as of the second. -/
def Precedes (p q : β → Bool) (l : List β) : Prop :=
  ∀ front, front <+: l → front.countP q ≤ front.countP p

namespace Precedes

variable {p q : β → Bool} {l r all : List β}

theorem of_forall_not (none : ∀ x ∈ l, q x = false) : Precedes p q l := by
  intro front sofar
  have zero : front.countP q = 0 := by
    refine List.countP_eq_zero.2 fun x hx => ?_
    rw [none x (sofar.subset hx)]
    exact Bool.false_ne_true
  exact zero ▸ Nat.zero_le _

theorem concat {x : β} (none : ∀ y ∈ l, q y = false) (before : q x = true → ∃ y ∈ l, p y = true) :
    Precedes p q (l ++ [x]) := by
  intro front sofar
  obtain rfl | within := List.prefix_concat_iff.1 sofar
  · have zero : l.countP q = 0 := List.countP_eq_zero.2 fun y hy => by simp [none y hy]
    rw [List.countP_append, zero, Nat.zero_add, List.countP_singleton]
    split
    · next second =>
      exact Nat.le_trans (List.countP_pos_iff.2 (before second))
        (List.prefix_append l [x]).sublist.countP_le
    · exact Nat.zero_le _
  · exact of_forall_not none front within

theorem append (hl : Precedes p q l) (hr : Precedes p q r) : Precedes p q (l ++ r) := by
  intro front sofar
  obtain within | ⟨rest, rfl⟩ := List.prefix_or_prefix_of_prefix sofar (List.prefix_append l r)
  · exact hl front within
  · rw [List.countP_append, List.countP_append]
    exact Nat.add_le_add (hl l List.prefix_rfl) (hr rest ((List.prefix_append_right_inj l).1 sofar))

theorem flatMap {α : Type} {f : α → List β} {xs : List α} (each : ∀ x ∈ xs, Precedes p q (f x)) :
    Precedes p q (xs.flatMap f) := by
  induction xs with
  | nil => exact of_forall_not (List.forall_mem_nil _)
  | cons x xs ih =>
    obtain ⟨first, others⟩ := List.forall_mem_cons.1 each
    exact first.append (ih others)

theorem merges (h : Merges l r all) (hl : Precedes p q l) (hr : Precedes p q r) : Precedes p q all := by
  intro front sofar
  obtain ⟨l', r', partial_, partial', merged⟩ := h.exists_of_prefix sofar
  rw [merged.perm.countP_eq, merged.perm.countP_eq, List.countP_append, List.countP_append]
  exact Nat.add_le_add (hl l' partial_) (hr r' partial')

theorem interleaves {lists : List (List β)} (h : Interleaves lists all)
    (each : ∀ l ∈ lists, Precedes p q l) : Precedes p q all := by
  induction h with
  | nil => exact of_forall_not (List.forall_mem_nil _)
  | cons _ merged ih =>
    obtain ⟨first, others⟩ := List.forall_mem_cons.1 each
    exact merges merged first (ih others)

end Precedes

end FleetPosture
