import FleetPosture.Proofs.Text.Words
import Mathlib.Data.List.Basic

/-! The lines of a text. Behind a newline the lines begin anew, so that a text whose lines are ended
can be read apart from what follows it; and a line is read as it was written unless it ends with
carriage returns, which are taken for part of the line's end. -/

namespace FleetPosture.Text

/-- Stands in a line as it is: no newline ends it early, and no carriage return at its end is lost. -/
structure IsLine (s : List Char) : Prop where
  newline : '\n' ∉ s
  last : s.getLast? ≠ some '\r'

theorem isLine_iff {s : List Char} : IsLine s ↔ '\n' ∉ s ∧ s.getLast? ≠ some '\r' :=
  ⟨fun h => ⟨h.newline, h.last⟩, fun h => ⟨h.1, h.2⟩⟩

instance (s : List Char) : Decidable (IsLine s) := decidable_of_iff' _ isLine_iff

section IsLine

variable {a b s : List Char} {c : Char}

theorem OneLine.isLine (h : OneLine s) : IsLine s :=
  ⟨h.1, fun last => h.2 (List.mem_of_getLast? last)⟩

theorem isLine_toDigits (n : Nat) : IsLine (Nat.toDigits 10 n) := (oneLine_toDigits n).isLine

theorem IsLine.append_left (hb : IsLine b) (ha : '\n' ∉ a) (nonempty : b ≠ []) : IsLine (a ++ b) where
  newline := by simp [ha, hb.newline]
  last := by rw [List.getLast?_append_of_ne_nil a nonempty]; exact hb.last

theorem IsLine.append (ha : IsLine a) (hb : IsLine b) : IsLine (a ++ b) := by
  by_cases nonempty : b = []
  · rwa [nonempty, List.append_nil]
  · exact hb.append_left ha.newline nonempty

theorem IsLine.cons (hs : IsLine s) (hc : c ≠ '\n' ∧ c ≠ '\r') : IsLine (c :: s) :=
  IsLine.append (a := [c]) ⟨by simpa [eq_comm] using hc.1, by simpa using hc.2⟩ hs

end IsLine

section TrimEnd

variable {p : Char → Bool} {s : List Char} {c : Char}

theorem trimEndWhile_of_getLast? (h : ∀ c ∈ s.getLast?, p c = false) : trimEndWhile p s = s := by
  have kept : s.reverse.dropWhile p = s.reverse := by
    cases hs : s.reverse with
    | nil => rfl
    | cons c cs =>
      have hc : c ∈ s.getLast? := by rw [← List.head?_reverse, hs]; rfl
      rw [List.dropWhile_cons_of_neg (by simp [h c hc])]
  rw [trimEndWhile, kept, List.reverse_reverse]

theorem trimEndWhile_of_isLine (h : IsLine s) : trimEndWhile (· == '\r') s = s :=
  trimEndWhile_of_getLast? fun _ hc => beq_eq_false_iff_ne.2 fun e => h.last (e ▸ hc)

theorem exists_trimEndWhile (p : Char → Bool) (s : List Char) :
    ∃ ending, s = trimEndWhile p s ++ ending ∧ ∀ c ∈ ending, p c := by
  refine ⟨(s.reverse.takeWhile p).reverse, ?_, fun c hc => ?_⟩
  · rw [trimEndWhile, ← List.reverse_append, List.takeWhile_append_dropWhile, List.reverse_reverse]
  · exact List.mem_takeWhile_imp (List.mem_reverse.1 hc)

theorem trimEndWhile_prefix (p : Char → Bool) (s : List Char) : trimEndWhile p s <+: s := by
  obtain ⟨ending, whole, -⟩ := exists_trimEndWhile p s
  exact ⟨ending, whole.symm⟩

theorem count_trimEndWhile (hc : p c = false) (s : List Char) :
    (trimEndWhile p s).count c = s.count c := by
  obtain ⟨ending, whole, trimmed⟩ := exists_trimEndWhile p s
  have lost : ending.count c = 0 := List.count_eq_zero.2 fun h => by simp [trimmed c h] at hc
  conv_rhs => rw [whole, List.count_append, lost, Nat.add_zero]

theorem not_of_getLast?_trimEndWhile (p : Char → Bool) (s : List Char) :
    ∀ c ∈ (trimEndWhile p s).getLast?, p c = false := by
  intro c hc
  have first := List.head?_dropWhile_not p s.reverse
  rw [trimEndWhile, List.getLast?_reverse] at hc
  rwa [hc] at first

theorem trimEndWhile_append {ending : List Char} (h : ∀ c ∈ ending, p c) (s : List Char) :
    trimEndWhile p (s ++ ending) = trimEndWhile p s := by
  have trimmed : ∀ c ∈ ending.reverse, p c := fun c hc => h c (List.mem_reverse.1 hc)
  rw [trimEndWhile, trimEndWhile, List.reverse_append, List.dropWhile_append_of_pos trimmed]

theorem trimEndWhile_eq_iff {t : List Char} : trimEndWhile p s = t ↔
    ∃ ending, s = t ++ ending ∧ (∀ c ∈ ending, p c) ∧ ∀ c ∈ t.getLast?, p c = false := by
  constructor
  · rintro rfl
    obtain ⟨ending, whole, trimmed⟩ := exists_trimEndWhile p s
    exact ⟨ending, whole, trimmed, not_of_getLast?_trimEndWhile p s⟩
  · rintro ⟨ending, rfl, trimmed, last⟩
    rw [trimEndWhile_append trimmed, trimEndWhile_of_getLast? last]

theorem trimEndWhile_cons (hc : p c = false) (s : List Char) :
    trimEndWhile p (c :: s) = c :: trimEndWhile p s := by
  unfold trimEndWhile
  rw [List.reverse_cons, List.dropWhile_append]
  split
  case isTrue h => simp [List.isEmpty_iff.1 h, hc]
  case isFalse => rw [List.reverse_append, List.reverse_singleton, List.singleton_append]

theorem stripReturn_eq_or (s : List Char) : s = stripReturn s ∨ s = stripReturn s ++ ['\r'] := by
  unfold stripReturn
  split
  case isTrue h =>
    obtain ⟨front, rfl⟩ := List.getLast?_eq_some_iff.1 h
    rw [List.dropLast_concat]
    exact .inr rfl
  case isFalse => exact .inl rfl

theorem trimEndWhile_stripReturn (s : List Char) :
    trimEndWhile (· == '\r') (stripReturn s) = trimEndWhile (· == '\r') s := by
  rcases stripReturn_eq_or s with same | ended
  · rw [← same]
  · conv_rhs => rw [ended, trimEndWhile_append (by simp)]

theorem words_stripReturn (s : List Char) : words (stripReturn s) = words s := by
  rcases stripReturn_eq_or s with same | ended
  · rw [← same]
  · conv_rhs => rw [ended, words_concat _ (by decide)]

theorem trim_of_ends (first : ∀ c ∈ s.head?, isBlank c = false)
    (last : ∀ c ∈ s.getLast?, isBlank c = false) : trim s = s := by
  have start : trimStart s = s := by
    cases s with
    | nil => rfl
    | cons c cs => exact List.dropWhile_cons_of_neg (by simp [first c rfl])
  rw [trim, start, trimEnd, trimEndWhile_of_getLast? last]

theorem exists_trim (s : List Char) : ∃ left right, s = left ++ trim s ++ right ∧
    (∀ c ∈ left, isBlank c) ∧ ∀ c ∈ right, isBlank c := by
  obtain ⟨right, rest, blank⟩ := exists_trimEndWhile isBlank (trimStart s)
  refine ⟨s.takeWhile isBlank, right, ?_, fun c hc => List.mem_takeWhile_imp hc, blank⟩
  rw [List.append_assoc, trim, trimEnd, ← rest, trimStart, List.takeWhile_append_dropWhile]

theorem trim_surrounded {left right : List Char} (hl : ∀ c ∈ left, isBlank c)
    (hr : ∀ c ∈ right, isBlank c) (s : List Char) : trim (left ++ s ++ right) = trim s := by
  rw [trim, trim, trimStart, List.append_assoc, List.dropWhile_append_of_pos hl,
    List.dropWhile_append]
  split
  case isTrue empty =>
    rw [trimStart, List.isEmpty_iff.1 empty, List.dropWhile_eq_nil_iff.2 hr]
  case isFalse => exact trimEndWhile_append hr _

theorem trim_of_unbroken (h : Unbroken s) : trim s = s :=
  trim_of_ends (fun c hc => h c (List.mem_of_head? hc)) fun c hc => h c (List.mem_of_getLast? hc)

end TrimEnd

section Terminated

def terminated (ls : List (List Char)) : List Char := ls.flatMap (· ++ ['\n'])

theorem terminated_cons (l : List Char) (ls : List (List Char)) :
    terminated (l :: ls) = l ++ '\n' :: terminated ls := by
  rw [terminated, List.flatMap_cons, List.append_assoc, List.singleton_append, terminated]

theorem lines_terminated_append {ls : List (List Char)} (h : ∀ l ∈ ls, '\n' ∉ l) (rest : List Char) :
    lines (terminated ls ++ rest) = ls.map stripReturn ++ lines rest := by
  induction ls with
  | nil => rfl
  | cons l ls ih =>
    obtain ⟨newline, hls⟩ := List.forall_mem_cons.1 h
    rw [terminated_cons, List.append_assoc, List.cons_append, lines_append newline, ih hls,
      List.map_cons, List.cons_append]

theorem lines_terminated_eq {ls : List (List Char)} (h : ∀ l ∈ ls, '\n' ∉ l) :
    lines (terminated ls) = ls.map stripReturn := by
  have none : lines [] = [] := rfl
  simpa only [none, List.append_nil] using lines_terminated_append h []

/-- A reader of single lines that takes nothing from an empty line and looks past a carriage return
at the end may as well be given what stands between the newlines. -/
theorem filterMap_lines {β : Type} {f : List Char → Option β} (empty : f [] = none)
    (ends : ∀ l, f (stripReturn l) = f l) (s : List Char) :
    (lines s).filterMap f = (s.splitOn '\n').filterMap f := by
  have stripped (ls : List (List Char)) : (ls.map stripReturn).filterMap f = ls.filterMap f := by
    rw [List.filterMap_map]
    exact List.filterMap_congr fun l _ => ends l
  obtain ⟨front, last, parts⟩ : ∃ front last, pieces (· == '\n') s = front ++ [last] :=
    ⟨_, _, (List.dropLast_append_getLast (pieces_ne_nil s)).symm⟩
  rw [List.splitOn_eq_splitOnP, ← pieces_eq_splitOnP, lines, parts, List.dropLast_concat,
    List.getLast?_concat, List.filterMap_append, List.filterMap_append, stripped]
  cases last with
  | nil => simp [empty]
  | cons c cs => rfl

theorem exists_terminated (s : List Char) :
    ∃ ls tail, s = terminated ls ++ tail ∧ (∀ l ∈ ls, '\n' ∉ l) ∧ '\n' ∉ tail := by
  induction s with
  | nil => exact ⟨[], [], rfl, List.forall_mem_nil _, List.not_mem_nil⟩
  | cons c s ih =>
    obtain ⟨ls, tail, rfl, hls, htail⟩ := ih
    by_cases hc : c = '\n'
    · refine ⟨[] :: ls, tail, ?_, List.forall_mem_cons.2 ⟨List.not_mem_nil, hls⟩, htail⟩
      rw [terminated_cons, hc]
      rfl
    · have notHead {t : List Char} (h : '\n' ∉ t) : '\n' ∉ c :: t := by simpa [Ne.symm hc] using h
      cases ls with
      | nil => exact ⟨[], c :: tail, rfl, hls, notHead htail⟩
      | cons l ls =>
        obtain ⟨hl, hls⟩ := List.forall_mem_cons.1 hls
        exact ⟨(c :: l) :: ls, tail, rfl, List.forall_mem_cons.2 ⟨notHead hl, hls⟩, htail⟩

theorem lines_append_of_terminated {a : List Char} (h : a = [] ∨ a.getLast? = some '\n')
    (b : List Char) : lines (a ++ b) = lines a ++ lines b := by
  obtain ⟨ls, tail, rfl, hls, htail⟩ := exists_terminated a
  have ended : tail = [] := by
    rcases h with h | h
    · exact (List.append_eq_nil_iff.1 h).2
    · by_contra nonempty
      rw [List.getLast?_append_of_ne_nil _ nonempty] at h
      exact htail (List.mem_of_getLast? h)
  rw [ended, List.append_nil, lines_terminated_append hls, lines_terminated_eq hls]

theorem exists_stripReturn_cons {c : Char} (hc : c ≠ '\r') (s : List Char) :
    ∃ t, stripReturn (c :: s) = c :: t := by
  unfold stripReturn
  split
  case isTrue last =>
    cases s with
    | nil => exact absurd (Option.some.inj last) hc
    | cons d ds => exact ⟨(d :: ds).dropLast, rfl⟩
  case isFalse => exact ⟨s, rfl⟩

theorem exists_lines_cons {c : Char} (hc : c ≠ '\n' ∧ c ≠ '\r') (s : List Char) :
    ∃ line rest, lines (c :: s) = (c :: line) :: rest := by
  obtain ⟨ls, tail, split, hls, htail⟩ := exists_terminated (c :: s)
  rw [split]
  cases ls with
  | nil =>
    have whole : tail = c :: s := split.symm
    rw [whole] at htail ⊢
    have single : pieces (· == '\n') (c :: s) = [c :: s] :=
      pieces_of_forall_not fun d hd => beq_eq_false_iff_ne.2 fun e => htail (e ▸ hd)
    exact ⟨s, [], by simp [lines, terminated, single]⟩
  | cons l ls =>
    cases l with
    | nil => exact absurd (List.cons.inj split).1 hc.1
    | cons d l =>
      obtain ⟨rfl, -⟩ := List.cons.inj split
      obtain ⟨line, stripped⟩ := exists_stripReturn_cons hc.2 l
      rw [lines_terminated_append hls, List.map_cons, stripped]
      exact ⟨line, _, rfl⟩

end Terminated

end FleetPosture.Text
