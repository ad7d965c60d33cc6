import Mathlib.Data.List.Basic

/-! Lists whose elements carry the places where they stand, counted from zero. -/

namespace FleetPosture

variable {α β : Type}

theorem pairwise_zipIdx (xs : List α) : xs.zipIdx.Pairwise fun a b => a.2 < b.2 := by
  rw [← List.pairwise_map, List.zipIdx_map_snd]
  exact List.pairwise_lt_range'

theorem zipIdx_flatMap (f : α → List β) (xs : List α) :
    (xs.zipIdx.flatMap fun a => f a.1) = xs.flatMap f := by
  rw [← List.flatMap_map, List.zipIdx_map_fst]

theorem map_zipIdx_filter (q : α → Bool) (f : α → β) (xs : List α) :
    ((xs.zipIdx.filter fun a => q a.1).map fun a => f a.1) = (xs.filter q).map f := by
  have listed : xs.filter q = (xs.zipIdx.filter (q ∘ Prod.fst)).map Prod.fst := by
    rw [← List.filter_map, List.zipIdx_map_fst]
  rw [listed, List.map_map]
  rfl

section Found

variable {f : α → Option β} {xs : List α}

def foundAt (f : α → Option β) (xs : List α) : List (Nat × β) :=
  xs.zipIdx.filterMap fun a => (f a.1).map (a.2, ·)

theorem mem_foundAt_iff {i : Nat} {y : β} :
    (i, y) ∈ foundAt f xs ↔ ∃ x, xs[i]? = some x ∧ f x = some y := by
  simp only [foundAt, List.mem_filterMap, List.mem_zipIdx_iff_getElem?, Option.map_eq_some_iff,
    Prod.mk.injEq, Prod.exists]
  constructor
  · rintro ⟨x, _, hx, _, hy, rfl, rfl⟩
    exact ⟨x, hx, hy⟩
  · rintro ⟨x, hx, hy⟩
    exact ⟨x, i, hx, y, hy, rfl, rfl⟩

theorem pairwise_foundAt : (foundAt f xs).Pairwise fun a b => a.1 < b.1 := by
  refine (pairwise_zipIdx xs).filterMap _ fun a a' later b hb b' hb' => ?_
  obtain ⟨_, _, rfl⟩ := Option.map_eq_some_iff.1 hb
  obtain ⟨_, _, rfl⟩ := Option.map_eq_some_iff.1 hb'
  exact later

theorem map_foundAt : (foundAt f xs).map Prod.snd = xs.filterMap f := by
  have found : xs.filterMap f = xs.zipIdx.filterMap (f ∘ Prod.fst) := by
    rw [← List.filterMap_map, List.zipIdx_map_fst]
  rw [foundAt, List.map_filterMap, found]
  refine List.filterMap_congr fun a _ => ?_
  rw [Option.map_map]
  exact Option.map_id'

end Found

end FleetPosture
