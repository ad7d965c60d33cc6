/-!
Lists of which only the first element of each key is kept, and maps from text to values that list
their entries by ascending key. Text is ordered by code point, which is the order of its bytes.
-/

namespace FleetPosture

/-- The elements whose key is neither in `seen` nor the key of an earlier element. -/
def keepFirstFrom {α κ : Type} [DecidableEq κ] (key : α → κ) : List κ → List α → List α
  | _, [] => []
  | seen, x :: xs =>
    if key x ∈ seen then keepFirstFrom key seen xs
    else x :: keepFirstFrom key (key x :: seen) xs

def keepFirst {α κ : Type} [DecidableEq κ] (key : α → κ) (xs : List α) : List α :=
  keepFirstFrom key [] xs

structure SortedMap (α : Type) where
  entries : List (String × α)
  sorted : entries.Pairwise fun a b => a.1 < b.1

namespace SortedMap

variable {α : Type}

theorem ext_entries {m n : SortedMap α} (h : m.entries = n.entries) : m = n := by
  cases m; cases n; cases h; rfl

instance [DecidableEq α] : DecidableEq (SortedMap α) := fun m n =>
  if h : m.entries = n.entries then isTrue (ext_entries h)
  else isFalse fun e => h (e ▸ rfl)

def empty : SortedMap α := ⟨[], .nil⟩

instance : Inhabited (SortedMap α) := ⟨empty⟩

def get? (m : SortedMap α) (k : String) : Option α := m.entries.lookup k

def alterEntries (k : String) (f : Option α → α) : List (String × α) → List (String × α)
  | [] => [(k, f none)]
  | (k', v) :: r =>
    if k < k' then (k, f none) :: (k', v) :: r
    else if k = k' then (k, f (some v)) :: r
    else (k', v) :: alterEntries k f r

theorem mem_alterEntries_key {k : String} {f : Option α → α} {es : List (String × α)}
    {x : String × α} (h : x ∈ alterEntries k f es) : x.1 = k ∨ ∃ y ∈ es, y.1 = x.1 := by
  induction es with
  | nil => simp only [alterEntries, List.mem_singleton] at h; exact .inl (h ▸ rfl)
  | cons e r ih =>
    obtain ⟨k', v⟩ := e
    rw [alterEntries] at h
    split at h
    · rcases List.mem_cons.1 h with rfl | h
      · exact .inl rfl
      · exact .inr ⟨x, h, rfl⟩
    · split at h
      · rcases List.mem_cons.1 h with rfl | h
        · exact .inl rfl
        · exact .inr ⟨x, List.mem_cons_of_mem _ h, rfl⟩
      · rcases List.mem_cons.1 h with rfl | h
        · exact .inr ⟨_, List.mem_cons_self, rfl⟩
        · rcases ih h with h | ⟨y, hy, e⟩
          · exact .inl h
          · exact .inr ⟨y, List.mem_cons_of_mem _ hy, e⟩

theorem pairwise_alterEntries {k : String} {f : Option α → α} {es : List (String × α)}
    (h : es.Pairwise fun a b => a.1 < b.1) :
    (alterEntries k f es).Pairwise fun a b => a.1 < b.1 := by
  induction es with
  | nil => simp [alterEntries]
  | cons e r ih =>
    obtain ⟨k', v⟩ := e
    obtain ⟨head, tail⟩ := List.pairwise_cons.1 h
    rw [alterEntries]
    split
    case isTrue hlt =>
      refine List.pairwise_cons.2 ⟨fun y hy => ?_, h⟩
      rcases List.mem_cons.1 hy with rfl | hy
      · exact hlt
      · exact String.lt_trans hlt (head y hy)
    case isFalse hge =>
      split
      case isTrue heq => subst heq; exact List.pairwise_cons.2 ⟨head, tail⟩
      case isFalse hne =>
        have hlt : k' < k := by
          rcases Std.lt_trichotomy k k' with h | h | h
          · exact absurd h hge
          · exact absurd h hne
          · exact h
        refine List.pairwise_cons.2 ⟨fun y hy => ?_, ih tail⟩
        rcases mem_alterEntries_key hy with h | ⟨z, hz, e⟩
        · rw [h]; exact hlt
        · rw [← e]; exact head z hz

def alter (m : SortedMap α) (k : String) (f : Option α → α) : SortedMap α :=
  ⟨alterEntries k f m.entries, pairwise_alterEntries m.sorted⟩

def insert (m : SortedMap α) (k : String) (v : α) : SortedMap α := m.alter k fun _ => v

def ofList (es : List (String × α)) : SortedMap α :=
  es.foldl (fun m e => m.insert e.1 e.2) empty

end SortedMap

abbrev SortedSet := SortedMap Unit

namespace SortedSet

def ofTexts (xs : List String) : SortedSet := SortedMap.ofList (xs.map fun x => (x, ()))

def toTexts (s : SortedSet) : List String := s.entries.map (·.1)

def has (s : SortedSet) (x : String) : Bool := s.entries.any (·.1 == x)

end SortedSet

end FleetPosture
