import FleetPosture.Proofs.Text.Pieces
import FleetPosture.Text.Pieces
import Mathlib.Data.List.TakeWhile

/-! The words of a line are found between any blank characters that stand around them. -/

namespace FleetPosture.Text

theorem isAlphanum_range {x : Char} (h : x.isAlphanum = true) :
    48 ≤ x.toNat ∧ x.toNat ≤ 122 := by
  have codes : ('A'.val.toNat = 65 ∧ 'Z'.val.toNat = 90) ∧
      ('a'.val.toNat = 97 ∧ 'z'.val.toNat = 122) ∧ '0'.val.toNat = 48 ∧ '9'.val.toNat = 57 := by
    decide
  change ((decide ('A'.val ≤ x.val ∧ x.val ≤ 'Z'.val) ||
    decide ('a'.val ≤ x.val) && decide (x.val ≤ 'z'.val)) ||
      decide ('0'.val ≤ x.val) && decide (x.val ≤ '9'.val)) = true at h
  simp only [Bool.or_eq_true, Bool.and_eq_true, decide_eq_true_eq, UInt32.le_iff_toNat_le] at h
  change 48 ≤ x.val.toNat ∧ x.val.toNat ≤ 122
  omega

def Unbroken (s : List Char) : Prop := ∀ c ∈ s, isBlank c = false

-- by name: as characters are finitely many, the search could settle on trying them all
instance (s : List Char) : Decidable (Unbroken s) := List.decidableBAll (isBlank · = false) s

structure IsWord (s : List Char) : Prop where
  nonempty : s ≠ []
  unbroken : Unbroken s

theorem isWord_iff {s : List Char} : IsWord s ↔ s ≠ [] ∧ Unbroken s :=
  ⟨fun h => ⟨h.nonempty, h.unbroken⟩, fun h => ⟨h.1, h.2⟩⟩

instance (s : List Char) : Decidable (IsWord s) := decidable_of_iff' _ isWord_iff

section Unbroken

variable {a b s : List Char} {c : Char}

theorem unbroken_nil : Unbroken [] := fun _ h => absurd h List.not_mem_nil

theorem unbroken_cons : Unbroken (c :: s) ↔ isBlank c = false ∧ Unbroken s := List.forall_mem_cons

theorem unbroken_append : Unbroken (a ++ b) ↔ Unbroken a ∧ Unbroken b := List.forall_mem_append

theorem Unbroken.not_mem (h : Unbroken s) (hc : isBlank c) : c ∉ s := fun hmem => by
  simp [h c hmem] at hc

theorem Unbroken.oneLine (h : Unbroken s) : OneLine s :=
  ⟨h.not_mem (by decide), h.not_mem (by decide)⟩

theorem isBlank_of_isDigit (h : c.isDigit) : isBlank c = false := by
  have range : 48 ≤ c.toNat ∧ c.toNat ≤ 57 := by
    simpa [Char.isDigit, UInt32.le_iff_toNat_le] using h
  simp only [isBlank, Bool.or_eq_false_iff, Bool.and_eq_false_iff, decide_eq_false_iff_not,
    beq_eq_false_iff_ne]
  omega

theorem unbroken_toDigits (n : Nat) : Unbroken (Nat.toDigits 10 n) := fun _ hc =>
  isBlank_of_isDigit (Nat.isDigit_of_mem_toDigits (by decide) (by decide) hc)

theorem oneLine_toDigits (n : Nat) : OneLine (Nat.toDigits 10 n) := (unbroken_toDigits n).oneLine

theorem isWord_toDigits (n : Nat) : IsWord (Nat.toDigits 10 n) := ⟨by simp, unbroken_toDigits n⟩

end Unbroken

variable {w : List Char} {c : Char}

theorem words_of_isWord (hw : IsWord w) : words w = [w] := by
  rw [words, pieces_of_forall_not hw.unbroken, List.filter_cons_of_pos (by simpa using hw.nonempty),
    List.filter_nil]

theorem words_append_blank (a : List Char) (hc : isBlank c) (b : List Char) :
    words (a ++ c :: b) = words a ++ words b := by
  rw [words, pieces_eq_splitOnP, List.splitOnP_append_cons a b hc, List.filter_append,
    ← pieces_eq_splitOnP, ← pieces_eq_splitOnP, words, words]

theorem words_append (hw : IsWord w) (hc : isBlank c) (rest : List Char) :
    words (w ++ c :: rest) = w :: words rest := by
  rw [words_append_blank w hc, words_of_isWord hw, List.singleton_append]

theorem words_cons (hc : isBlank c) (rest : List Char) : words (c :: rest) = words rest := by
  rw [words, pieces, if_pos hc, List.filter_cons_of_neg (by simp), words]

theorem words_append_of_head (hw : IsWord w) {rest : List Char} (h : ∀ c ∈ rest.head?, isBlank c) :
    words (w ++ rest) = w :: words rest := by
  cases rest with
  | nil => rw [List.append_nil, words_of_isWord hw]; rfl
  | cons c rest => rw [words_append hw (h c rfl), words_cons (h c rfl)]

theorem words_append_of_blank {gap : List Char} (h : ∀ c ∈ gap, isBlank c) (rest : List Char) :
    words (gap ++ rest) = words rest := by
  induction gap with
  | nil => rfl
  | cons c gap ih =>
    obtain ⟨hc, hgap⟩ := List.forall_mem_cons.1 h
    rw [List.cons_append, words_cons hc, ih hgap]

theorem words_replicate (k : Nat) (hc : isBlank c) (rest : List Char) :
    words (List.replicate k c ++ rest) = words rest :=
  words_append_of_blank (fun _ h => List.eq_of_mem_replicate h ▸ hc) rest

theorem words_concat (s : List Char) (hc : isBlank c) : words (s ++ [c]) = words s := by
  rw [words_append_blank s hc]
  exact List.append_nil _

def upToBlank (s : List Char) : List Char := s.takeWhile (! isBlank ·)

def laterWords (s : List Char) : List (List Char) := words (s.dropWhile (! isBlank ·))

theorem unbroken_upToBlank (s : List Char) : Unbroken (upToBlank s) := fun c hc => by
  simpa using List.mem_takeWhile_imp hc

theorem words_append_eq_cons (hw : IsWord w) (s : List Char) :
    words (w ++ s) = (w ++ upToBlank s) :: laterWords s := by
  have word : IsWord (w ++ upToBlank s) :=
    ⟨List.append_ne_nil_of_left_ne_nil hw.nonempty _,
      unbroken_append.2 ⟨hw.unbroken, unbroken_upToBlank s⟩⟩
  have blank : ∀ c ∈ (s.dropWhile (! isBlank ·)).head?, isBlank c := by
    intro c hc
    have first := List.head?_dropWhile_not (! isBlank ·) s
    rw [hc] at first
    simpa using first
  rw [laterWords, ← words_append_of_head word blank, List.append_assoc, upToBlank,
    List.takeWhile_append_dropWhile]

theorem upToBlank_of_unbroken {s : List Char} (h : Unbroken s) : upToBlank s = s :=
  List.takeWhile_eq_self_iff.2 fun c hc => by simp [h c hc]

theorem laterWords_of_unbroken {s : List Char} (h : Unbroken s) : laterWords s = [] := by
  rw [laterWords, List.dropWhile_eq_nil_iff.2 fun c hc => by simp [h c hc]]
  rfl

end FleetPosture.Text
