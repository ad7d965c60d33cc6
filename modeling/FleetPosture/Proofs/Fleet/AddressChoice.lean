import FleetPosture.Fleet.Target
import FleetPosture.Proofs.Net.Network

/-! Which of a host's addresses is used. The candidates are looked through twice, first for those in
the preferred network and then for those that may lead to the host, and the first one found counts;
where there is none, the first of all does. -/

namespace FleetPosture.Fleet

open Net (Address Network)

section First

variable {α : Type}

inductive First (p : α → Prop) : List α → α → Prop
  | here {x : α} {xs : List α} (hit : p x) : First p (x :: xs) x
  | later {x y : α} {xs : List α} (miss : ¬ p y) (first : First p xs x) : First p (y :: xs) x

theorem First.mem {p : α → Prop} {xs : List α} {x : α} (h : First p xs x) : x ∈ xs ∧ p x := by
  induction h with
  | here hit => exact ⟨List.mem_cons_self, hit⟩
  | later _ _ ih => exact ⟨List.mem_cons_of_mem _ ih.1, ih.2⟩

theorem find?_eq_some_iff_first {q : α → Bool} {p : α → Prop} (hq : ∀ x, q x ↔ p x) {xs : List α}
    {x : α} : xs.find? q = some x ↔ First p xs x := by
  constructor
  · intro found
    induction xs with
    | nil => cases found
    | cons y ys ih =>
      rw [List.find?_cons] at found
      cases hy : q y with
      | true =>
        rw [hy] at found
        cases found
        exact .here ((hq _).1 hy)
      | false =>
        rw [hy] at found
        have miss : ¬ p y := fun h => Bool.false_ne_true (hy.symm.trans ((hq y).2 h))
        exact .later miss (ih found)
  · intro first
    induction first with
    | here hit => exact List.find?_cons_of_pos ((hq _).2 hit)
    | later miss _ ih =>
      rw [List.find?_cons_of_neg fun h => miss ((hq _).1 h)]
      exact ih

theorem find?_eq_none_iff_forall_not {q : α → Bool} {p : α → Prop} (hq : ∀ x, q x ↔ p x)
    {xs : List α} : xs.find? q = none ↔ ∀ x ∈ xs, ¬ p x := by
  simp only [List.find?_eq_none, hq]

end First

variable {preferred : Option Network} {candidates : List String} {c : String}

def IsPreferred (preferred : Option Network) (candidate : String) : Prop :=
  ∃ n, preferred = some n ∧ ∃ a, Address.parse? candidate = some a ∧ n.Agrees a

/-- The candidate is a name, or an address that may lead to another host. -/
def IsUsable (candidate : String) : Prop :=
  ∀ a, Address.parse? candidate = some a → ∀ n ∈ Address.unroutable, ¬ n.Agrees a

inductive Chosen (preferred : Option Network) (candidates : List String) : String → Prop
  | preferred {c : String} (first : First (IsPreferred preferred) candidates c) :
      Chosen preferred candidates c
  | usable {c : String} (unpreferred : ∀ x ∈ candidates, ¬ IsPreferred preferred x)
      (first : First IsUsable candidates c) : Chosen preferred candidates c
  | fallback {c : String} {rest : List String}
      (unpreferred : ∀ x ∈ candidates, ¬ IsPreferred preferred x)
      (unusable : ∀ x ∈ candidates, ¬ IsUsable x) (head : candidates = c :: rest) :
      Chosen preferred candidates c

theorem isReachable_iff {candidate : String} : isReachable candidate ↔ IsUsable candidate := by
  unfold isReachable IsUsable
  cases Address.parse? candidate with
  | none => simp
  | some a => simp [Address.isRoutable_iff]

theorem isIn_iff {n : Network} {candidate : String} :
    isIn n candidate ↔ IsPreferred (some n) candidate := by
  unfold isIn IsPreferred
  cases Address.parse? candidate with
  | none => simp
  | some a => simp [Network.has_iff]

theorem findPreferred_eq_some_iff :
    (preferred.bind fun n => candidates.find? (isIn n)) = some c ↔
      First (IsPreferred preferred) candidates c := by
  cases preferred with
  | none =>
    refine iff_of_false (fun found => nomatch found) fun first => ?_
    obtain ⟨n, none, -⟩ := first.mem.2
    cases none
  | some n => exact find?_eq_some_iff_first fun _ => isIn_iff

theorem findPreferred_eq_none_iff :
    (preferred.bind fun n => candidates.find? (isIn n)) = none ↔
      ∀ x ∈ candidates, ¬ IsPreferred preferred x := by
  cases preferred with
  | none =>
    refine ⟨fun _ x _ preferred => ?_, fun _ => rfl⟩
    obtain ⟨n, none, -⟩ := preferred
    cases none
  | some n => exact find?_eq_none_iff_forall_not fun _ => isIn_iff

theorem chooseAddress?_of_chosen (chosen : Chosen preferred candidates c) :
    chooseAddress? preferred candidates = some c := by
  unfold chooseAddress?
  cases chosen with
  | preferred first => rw [findPreferred_eq_some_iff.2 first, Option.some_or, Option.some_or]
  | usable unpreferred first =>
    have found : candidates.find? isReachable = some c :=
      (find?_eq_some_iff_first fun _ => isReachable_iff).2 first
    rw [findPreferred_eq_none_iff.2 unpreferred, found, Option.none_or, Option.some_or]
  | fallback unpreferred unusable head =>
    have none : candidates.find? isReachable = none :=
      (find?_eq_none_iff_forall_not fun _ => isReachable_iff).2 unusable
    rw [findPreferred_eq_none_iff.2 unpreferred, none, Option.none_or, Option.none_or, head]
    rfl

theorem exists_chosen (preferred : Option Network) (nonempty : candidates ≠ []) :
    ∃ c, Chosen preferred candidates c := by
  cases near : preferred.bind fun n => candidates.find? (isIn n) with
  | some c => exact ⟨c, .preferred (findPreferred_eq_some_iff.1 near)⟩
  | none =>
    have unpreferred := findPreferred_eq_none_iff.1 near
    cases far : candidates.find? isReachable with
    | some c =>
      exact ⟨c, .usable unpreferred ((find?_eq_some_iff_first fun _ => isReachable_iff).1 far)⟩
    | none =>
      have unusable := (find?_eq_none_iff_forall_not fun _ => isReachable_iff).1 far
      obtain ⟨c, rest, head⟩ := List.exists_cons_of_ne_nil nonempty
      exact ⟨c, .fallback unpreferred unusable head⟩

theorem chooseAddress?_eq_none_iff :
    chooseAddress? preferred candidates = none ↔ candidates = [] := by
  cases candidates with
  | nil => cases preferred <;> exact iff_of_true rfl rfl
  | cons c rest =>
    obtain ⟨c', chosen⟩ := exists_chosen preferred (List.cons_ne_nil c rest)
    rw [chooseAddress?_of_chosen chosen]
    exact iff_of_false (Option.some_ne_none c') (List.cons_ne_nil c rest)

theorem chooseAddress?_eq_some_iff :
    chooseAddress? preferred candidates = some c ↔ Chosen preferred candidates c := by
  refine ⟨fun found => ?_, chooseAddress?_of_chosen⟩
  have nonempty : candidates ≠ [] := by
    intro none
    rw [chooseAddress?_eq_none_iff.2 none] at found
    cases found
  obtain ⟨c', chosen⟩ := exists_chosen preferred nonempty
  rw [chooseAddress?_of_chosen chosen] at found
  cases found
  exact chosen

theorem Chosen.mem (chosen : Chosen preferred candidates c) : c ∈ candidates := by
  cases chosen with
  | preferred first => exact first.mem.1
  | usable _ first => exact first.mem.1
  | fallback _ _ head => exact head ▸ List.mem_cons_self

theorem Chosen.unusable (chosen : Chosen preferred candidates c)
    (outside : ¬ IsPreferred preferred c) (unusable : ¬ IsUsable c) :
    ∀ x ∈ candidates, ¬ IsUsable x := by
  cases chosen with
  | preferred first => exact absurd first.mem.2 outside
  | usable _ first => exact absurd first.mem.2 unusable
  | fallback _ all _ => exact all

/-- The address that is used, for every list of candidates and with or without a preference. -/
theorem chooseAddress?_exact (preferred : Option Network) (candidates : List String) :
    (chooseAddress? preferred candidates = none ↔ candidates = []) ∧
      (∀ c, chooseAddress? preferred candidates = some c ↔ Chosen preferred candidates c) ∧
      ∀ c, chooseAddress? preferred candidates = some c → c ∈ candidates ∧
        (¬ IsPreferred preferred c → ¬ IsUsable c → ∀ x ∈ candidates, ¬ IsUsable x) := by
  refine ⟨chooseAddress?_eq_none_iff, fun c => chooseAddress?_eq_some_iff, fun c found => ?_⟩
  have chosen := chooseAddress?_eq_some_iff.1 found
  exact ⟨chosen.mem, chosen.unusable⟩

example : chooseAddress? (Network.parse? "192.168.0.0/16") ["169.254.0.7", "fe80::1", "10.0.16.4"] =
    some "10.0.16.4" := by
  decide +kernel

end FleetPosture.Fleet
