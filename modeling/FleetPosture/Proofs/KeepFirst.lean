import FleetPosture.Collections
import Mathlib.Data.List.Basic
import Mathlib.Data.List.Induction

/-! What is kept of a list: an element exactly if it is the first of its key. -/

namespace FleetPosture

variable {α κ : Type} [DecidableEq κ] {key : α → κ}

theorem mem_keepFirstFrom_iff {seen : List κ} {xs : List α} {x : α} :
    x ∈ keepFirstFrom key seen xs ↔
      key x ∉ seen ∧ xs.find? (fun y => key y = key x) = some x := by
  induction xs generalizing seen with
  | nil => simp [keepFirstFrom]
  | cons y ys ih =>
    rw [keepFirstFrom, List.find?_cons]
    by_cases hkey : key y = key x
    · -- the head has the key: it is the only candidate, and later ones are seen by then
      have later (seen : List κ) (h : key y ∈ seen) : x ∉ keepFirstFrom key seen ys := by
        rw [ih, ← hkey]
        exact fun hx => hx.1 h
      simp only [hkey, decide_true, Option.some.injEq]
      by_cases hseen : key x ∈ seen
      · rw [if_pos hseen]
        exact ⟨fun hx => absurd hx (later seen (hkey ▸ hseen)), fun hx => absurd hseen hx.1⟩
      · rw [if_neg hseen, List.mem_cons]
        constructor
        · rintro (rfl | hx)
          · exact ⟨hseen, rfl⟩
          · exact absurd hx (later _ (hkey ▸ List.mem_cons_self))
        · rintro ⟨-, rfl⟩
          exact .inl rfl
    · simp only [hkey, decide_false]
      have hne : x ≠ y := fun h => hkey (h ▸ rfl)
      by_cases hseen : key y ∈ seen
      · rw [if_pos hseen, ih]
      · rw [if_neg hseen, List.mem_cons, ih, List.mem_cons, not_or]
        exact ⟨fun h => h.elim (fun e => absurd e hne) fun h => ⟨h.1.2, h.2⟩,
          fun h => .inr ⟨⟨fun e => hkey e.symm, h.1⟩, h.2⟩⟩

theorem mem_keepFirst_iff {xs : List α} {x : α} :
    x ∈ keepFirst key xs ↔ xs.find? (fun y => key y = key x) = some x := by
  rw [keepFirst, mem_keepFirstFrom_iff]
  exact and_iff_right List.not_mem_nil

theorem mem_of_mem_keepFirst {xs : List α} {x : α} (h : x ∈ keepFirst key xs) : x ∈ xs :=
  List.mem_of_find?_eq_some (mem_keepFirst_iff.1 h)

theorem exists_mem_keepFirst {xs : List α} {x : α} (h : x ∈ xs) :
    ∃ y ∈ keepFirst key xs, key y = key x := by
  cases first : xs.find? fun y => key y = key x with
  | none => exact absurd (decide_eq_true rfl) (List.find?_eq_none.1 first x h)
  | some y =>
    have same : key y = key x := by simpa using List.find?_some first
    refine ⟨y, mem_keepFirst_iff.2 ?_, same⟩
    rw [same]
    exact first

theorem mem_keepFirst_id_iff {keys : List κ} {k : κ} : k ∈ keepFirst id keys ↔ k ∈ keys := by
  refine ⟨mem_of_mem_keepFirst, fun listed => ?_⟩
  have known : ∃ k' ∈ keepFirst id keys, id k' = id k := exists_mem_keepFirst listed
  obtain ⟨_, kept, rfl⟩ := known
  exact kept

theorem nodup_map_keepFirstFrom (seen : List κ) (xs : List α) :
    ((keepFirstFrom key seen xs).map key).Nodup := by
  induction xs generalizing seen with
  | nil => exact .nil
  | cons x xs ih =>
    rw [keepFirstFrom]
    split
    · exact ih seen
    · rw [List.map_cons, List.nodup_cons]
      refine ⟨fun again => ?_, ih _⟩
      obtain ⟨y, hy, same⟩ := List.mem_map.1 again
      exact (mem_keepFirstFrom_iff.1 hy).1 (same ▸ List.mem_cons_self)

theorem nodup_map_keepFirst (xs : List α) : ((keepFirst key xs).map key).Nodup :=
  nodup_map_keepFirstFrom [] xs

theorem keepFirstFrom_congr {seen seen' : List κ} {xs : List α}
    (h : ∀ x ∈ xs, key x ∈ seen ↔ key x ∈ seen') :
    keepFirstFrom key seen xs = keepFirstFrom key seen' xs := by
  induction xs generalizing seen seen' with
  | nil => rfl
  | cons x xs ih =>
    obtain ⟨hx, hxs⟩ := List.forall_mem_cons.1 h
    have more : ∀ y ∈ xs, key y ∈ key x :: seen ↔ key y ∈ key x :: seen' := by
      intro y hy
      rw [List.mem_cons, List.mem_cons, hxs y hy]
    simp only [keepFirstFrom, hx, ih hxs, ih more]

theorem keepFirstFrom_concat (seen : List κ) (xs ys : List α) :
    keepFirstFrom key seen (xs ++ ys) = keepFirstFrom key seen xs ++
      keepFirstFrom key (((keepFirstFrom key seen xs).map key).reverse ++ seen) ys := by
  induction xs generalizing seen with
  | nil => rfl
  | cons x xs ih =>
    rw [List.cons_append, keepFirstFrom, keepFirstFrom]
    by_cases old : key x ∈ seen
    · simp only [if_pos old]
      exact ih seen
    · simp only [if_neg old]
      rw [ih (key x :: seen), List.map_cons, List.reverse_cons, List.append_assoc, List.cons_append,
        List.singleton_append]

theorem keepFirstFrom_sublist (seen : List κ) (xs : List α) :
    (keepFirstFrom key seen xs).Sublist xs := by
  induction xs generalizing seen with
  | nil => exact .slnil
  | cons x xs ih =>
    rw [keepFirstFrom]
    split
    · exact (ih seen).cons x
    · exact (ih _).cons_cons x

theorem keepFirstFrom_append {seen : List κ} {xs ys : List α}
    (apart : ∀ x ∈ xs, ∀ y ∈ ys, key x ≠ key y) :
    keepFirstFrom key seen (xs ++ ys) = keepFirstFrom key seen xs ++ keepFirstFrom key seen ys := by
  rw [keepFirstFrom_concat]
  refine congrArg _ (keepFirstFrom_congr fun y hy => ?_)
  have unseen : key y ∉ (keepFirstFrom key seen xs).map key := by
    intro h
    obtain ⟨x, hx, same⟩ := List.mem_map.1 h
    exact apart x ((keepFirstFrom_sublist seen xs).mem hx) y hy same
  rw [List.mem_append, List.mem_reverse, or_iff_right unseen]

theorem keepFirst_map {β : Type} (f : β → α) (bs : List β) :
    keepFirst key (bs.map f) = (keepFirst (key ∘ f) bs).map f := by
  unfold keepFirst
  generalize ([] : List κ) = seen
  induction bs generalizing seen with
  | nil => rfl
  | cons b bs ih =>
    rw [List.map_cons, keepFirstFrom, keepFirstFrom, Function.comp_apply]
    split
    · exact ih seen
    · rw [ih, List.map_cons]

theorem pairwise_keepFirst {R : α → α → Prop} (trans : ∀ {x y z}, R x y → R y z → R x z)
    {xs : List α} (sorted : xs.Pairwise R) :
    (keepFirst key xs).Pairwise fun x y => ∀ z ∈ xs, key z = key y → R x z := by
  have kept : (keepFirst key xs).Pairwise R := sorted.sublist (keepFirstFrom_sublist [] xs)
  refine kept.imp_of_mem fun {x y} _ hy before z hz same => ?_
  -- the kept one is the first of its key, so `z` is the same or comes later
  have first := mem_keepFirst_iff.1 hy
  obtain ⟨front, back, split, new⟩ := (List.find?_eq_some_iff_append.1 first).2
  rw [split, List.mem_append, List.mem_cons] at hz
  rcases hz with early | rfl | late
  · have differs := new z early
    simp [same] at differs
  · exact before
  · rw [split, List.pairwise_append, List.pairwise_cons] at sorted
    exact trans before (sorted.2.1.1 z late)

theorem pairwise_map_keepFirst {ι : Type} {R : ι → ι → Prop}
    (trans : ∀ {x y z}, R x y → R y z → R x z) {found : List (ι × κ)}
    (sorted : found.Pairwise fun a b => R a.1 b.1) :
    ((keepFirst Prod.snd found).map Prod.snd).Pairwise fun k k' =>
      ∃ x, (x, k) ∈ found ∧ ∀ y, (y, k') ∈ found → R x y := by
  have kept : (keepFirst Prod.snd found).Pairwise
      fun a b => ∀ c ∈ found, c.2 = b.2 → R a.1 c.1 :=
    pairwise_keepFirst (R := fun a b : ι × κ => R a.1 b.1) trans sorted
  rw [List.pairwise_map]
  refine kept.imp_of_mem fun {a b} ha _ before => ⟨a.1, mem_of_mem_keepFirst ha, fun y later => ?_⟩
  exact before (y, b.2) later rfl

theorem keepFirstFrom_append_of_seen {seen : List κ} {xs : List α} (h : ∀ x ∈ xs, key x ∈ seen)
    (ys : List α) : keepFirstFrom key seen (xs ++ ys) = keepFirstFrom key seen ys := by
  induction xs with
  | nil => rfl
  | cons x xs ih =>
    obtain ⟨hx, hxs⟩ := List.forall_mem_cons.1 h
    rw [List.cons_append, keepFirstFrom, if_pos hx, ih hxs]

theorem keepFirst_append_of_met {xs ys : List α} (met : ∀ y ∈ ys, ∃ x ∈ xs, key x = key y)
    (zs : List α) : keepFirst key (xs ++ (ys ++ zs)) = keepFirst key (xs ++ zs) := by
  rw [keepFirst, keepFirst, keepFirstFrom_concat [] xs, keepFirstFrom_concat [] xs zs,
    keepFirstFrom_append_of_seen]
  intro y hy
  obtain ⟨x, hx, same⟩ := met y hy
  have known : ∃ x' ∈ keepFirst key xs, key x' = key x := exists_mem_keepFirst hx
  obtain ⟨x', kept, same'⟩ := known
  rw [List.append_nil, List.mem_reverse, ← same, ← same']
  exact List.mem_map_of_mem kept

/-- In a list made of runs of one key each, the first element of a run stands for it. -/
theorem keepFirst_runs {β : Type} {f : β → List κ} {bs : List β}
    (run : ∀ b ∈ bs, ∀ k ∈ f b, ∀ k' ∈ f b, k = k') :
    keepFirst id (bs.flatMap f) = keepFirst id (bs.filterMap fun b => (f b).head?) := by
  unfold keepFirst
  generalize ([] : List κ) = seen
  induction bs generalizing seen with
  | nil => rfl
  | cons b bs ih =>
    obtain ⟨hb, hbs⟩ := List.forall_mem_cons.1 run
    rw [List.flatMap_cons, List.filterMap_cons]
    cases first : f b with
    | nil => exact ih hbs seen
    | cons k ks =>
      rw [first] at hb
      have rest (seen : List κ) (h : k ∈ seen) : keepFirstFrom id seen (ks ++ bs.flatMap f) =
          keepFirstFrom id seen (bs.filterMap fun b => (f b).head?) := by
        rw [keepFirstFrom_append_of_seen, ih hbs]
        intro k' hk'
        rwa [id, ← hb k List.mem_cons_self k' (List.mem_cons_of_mem _ hk')]
      rw [List.cons_append, keepFirstFrom, List.head?_cons, keepFirstFrom, id]
      split
      case isTrue old => exact rest seen old
      case isFalse => rw [rest _ List.mem_cons_self]

theorem keepFirst_id_concat (xs : List κ) (x : κ) : keepFirst id (xs ++ [x]) =
    if x ∈ keepFirst id xs then keepFirst id xs else keepFirst id xs ++ [x] := by
  unfold keepFirst
  rw [keepFirstFrom_concat, List.append_nil, List.map_id, keepFirstFrom, keepFirstFrom]
  simp only [id, List.mem_reverse]
  split
  · exact List.append_nil _
  · rfl

/-- Where the parts of a list share no key, each is looked at by itself. -/
theorem keepFirst_flatMap {β : Type} {f : β → List α} {bs : List β}
    (apart : bs.Pairwise fun b c => ∀ x ∈ f b, ∀ y ∈ f c, key x ≠ key y) :
    keepFirst key (bs.flatMap f) = bs.flatMap fun b => keepFirst key (f b) := by
  induction bs with
  | nil => rfl
  | cons b bs ih =>
    obtain ⟨head, tail⟩ := List.pairwise_cons.1 apart
    have later : ∀ x ∈ f b, ∀ y ∈ bs.flatMap f, key x ≠ key y := by
      intro x hx y hy
      obtain ⟨c, hc, hy⟩ := List.mem_flatMap.1 hy
      exact head c hc x hx y hy
    rw [List.flatMap_cons, List.flatMap_cons, ← ih tail]
    exact keepFirstFrom_append later

theorem nodup_keepFirst (xs : List κ) : (keepFirst id xs).Nodup := by
  have once : ((keepFirst id xs).map id).Nodup := nodup_map_keepFirst xs
  rwa [List.map_id] at once

theorem keepFirst_perm {xs ys : List κ} (same : ∀ x, x ∈ xs ↔ x ∈ ys) :
    (keepFirst id xs).Perm (keepFirst id ys) := by
  rw [List.perm_ext_iff_of_nodup (nodup_keepFirst xs) (nodup_keepFirst ys)]
  intro x
  rw [mem_keepFirst_id_iff, mem_keepFirst_id_iff, same]

theorem pairwise_idxOf_keepFirst (xs : List κ) :
    (keepFirst id xs).Pairwise fun x y => xs.idxOf x < xs.idxOf y := by
  induction xs using List.reverseRecOn with
  | nil => exact .nil
  | append_singleton xs x ih =>
    have old {y : κ} (hy : y ∈ keepFirst id xs) : (xs ++ [x]).idxOf y = xs.idxOf y :=
      List.idxOf_append_of_mem (mem_keepFirst_id_iff.1 hy)
    have kept : (keepFirst id xs).Pairwise fun y z => (xs ++ [x]).idxOf y < (xs ++ [x]).idxOf z :=
      ih.imp_of_mem fun hy hz before => by rwa [old hy, old hz]
    rw [keepFirst_id_concat]
    split
    case isTrue => exact kept
    case isFalse new =>
      refine List.pairwise_append.2 ⟨kept, List.pairwise_singleton _ _, fun y hy z hz => ?_⟩
      have listed : y ∈ xs := mem_keepFirst_id_iff.1 hy
      have unlisted : x ∉ xs := fun h => new (mem_keepFirst_id_iff.2 h)
      rw [List.mem_singleton.1 hz, old hy, List.idxOf_append_of_notMem unlisted]
      exact Nat.lt_add_right _ (List.idxOf_lt_length_of_mem listed)

theorem keepFirst_of_injOn [DecidableEq α] {xs : List α}
    (apart : ∀ x ∈ xs, ∀ y ∈ xs, key x = key y → x = y) : keepFirst key xs = keepFirst id xs := by
  have run (ys seen : List α) (hys : ys ⊆ xs) (hseen : seen ⊆ xs) :
      keepFirstFrom key (seen.map key) ys = keepFirstFrom id seen ys := by
    induction ys generalizing seen with
    | nil => rfl
    | cons y ys ih =>
      obtain ⟨hy, hys⟩ := List.cons_subset.1 hys
      have known : key y ∈ seen.map key ↔ id y ∈ seen := by
        constructor
        · intro h
          obtain ⟨x, hx, same⟩ := List.mem_map.1 h
          exact apart x (hseen hx) y hy same ▸ hx
        · exact List.mem_map_of_mem
      have more : keepFirstFrom key (key y :: seen.map key) ys = keepFirstFrom id (y :: seen) ys :=
        ih (y :: seen) hys (List.cons_subset.2 ⟨hy, hseen⟩)
      simp only [keepFirstFrom, known, ih seen hys hseen, more, id]
  exact run xs [] (fun _ => id) (List.nil_subset xs)

end FleetPosture
