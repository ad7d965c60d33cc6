import FleetPosture.Proofs.Text.Lines
import FleetPosture.Proofs.Wire.Checked
import FleetPosture.Report.Render
import Mathlib.Data.List.Forall2

/-! Tables are aligned. Every column is as wide as the cells that it shows, so that no cell is wider than
its column when it is filled up; and where every row has a cell for every column, all lines of a table
have their separators in the same places. -/

namespace FleetPosture.Report.Table

def Fits : List Nat → List String → Prop
  | w :: ws, c :: cs => c.length ≤ w ∧ Fits ws cs
  | _, _ => True

section Widths

variable {ws : List Nat} {cells : List String}

theorem fits_widen (ws : List Nat) (cells : List String) : Fits (widen ws cells) cells := by
  induction ws generalizing cells with
  | nil => exact trivial
  | cons w ws ih =>
    cases cells with
    | nil => exact trivial
    | cons c cs => exact ⟨Nat.le_max_right w c.length, ih cs⟩

theorem Fits.widen (h : Fits ws cells) (others : List String) : Fits (widen ws others) cells := by
  induction ws generalizing cells others with
  | nil => exact trivial
  | cons w ws ih =>
    cases others with
    | nil => exact h
    | cons d ds =>
      cases cells with
      | nil => exact trivial
      | cons c cs => exact ⟨Nat.le_trans h.1 (Nat.le_max_left w d.length), ih h.2 ds⟩

theorem Fits.foldl (h : Fits ws cells) (rows : List (List String)) :
    Fits (rows.foldl Table.widen ws) cells := by
  induction rows generalizing ws with
  | nil => exact h
  | cons row rows ih => exact ih (h.widen row)

theorem fits_foldl {rows : List (List String)} (h : cells ∈ rows) (ws : List Nat) :
    Fits (rows.foldl widen ws) cells := by
  induction rows generalizing ws with
  | nil => exact absurd h List.not_mem_nil
  | cons row rows ih =>
    rcases List.mem_cons.1 h with rfl | h
    · exact (fits_widen ws cells).foldl rows
    · exact ih h (widen ws row)

theorem fits_lengths (cells : List String) : Fits (cells.map String.length) cells := by
  induction cells with
  | nil => exact trivial
  | cons c cs ih => exact ⟨Nat.le_refl _, ih⟩

theorem fits_widths (r : Report) : ∀ cells ∈ headings r :: r.rows, Fits (widths r) cells := by
  rw [List.forall_mem_cons]
  exact ⟨(fits_lengths (headings r)).foldl r.rows, fun cells h => fits_foldl h _⟩

theorem length_widen (ws : List Nat) (cells : List String) : (widen ws cells).length = ws.length := by
  induction ws generalizing cells with
  | nil => rfl
  | cons w ws ih =>
    cases cells with
    | nil => rfl
    | cons c cs => rw [widen, List.length_cons, ih, List.length_cons]

theorem length_widths (r : Report) : (widths r).length = r.header.length := by
  have same (rows : List (List String)) (ws : List Nat) :
      (rows.foldl widen ws).length = ws.length := by
    induction rows generalizing ws with
    | nil => rfl
    | cons row rows ih => rw [List.foldl_cons, ih, length_widen]
  rw [widths, same, List.length_map, headings, List.length_map]

end Widths

section Padding

def checkedCell (c : String) (w : Nat) : Checked String := do
  let padding ← Checked.difference w c.length
  .ok (" " ++ c ++ "".pushn ' ' (padding + 1) ++ "|")

def checkedRow (ws : List Nat) (cells : List String) : Checked String := do
  let shown ← (List.zipWith checkedCell cells ws).mapM id
  .ok ("|" ++ String.join shown)

def checkedLines (r : Report) : Checked (List String) := do
  let ws := widths r
  let heading ← checkedRow ws (headings r)
  let rows ← r.rows.mapM (checkedRow ws)
  .ok ([r.title, "", rule ws, heading, rule ws] ++ rows ++
    (if r.isEmpty then [] else rule ws :: r.note.toList) ++ [""])

theorem mapM_checkedCell {ws : List Nat} {cells : List String} (h : Fits ws cells) :
    (List.zipWith checkedCell cells ws).mapM id = .ok (List.zipWith cell cells ws) := by
  induction cells generalizing ws with
  | nil => rfl
  | cons c cs ih =>
    cases ws with
    | nil => rfl
    | cons w ws =>
      have shown : checkedCell c w = .ok (cell c w) := by
        rw [checkedCell, Checked.difference_of_le h.1]
        rfl
      rw [List.zipWith_cons_cons, List.mapM_cons, id, shown, ih h.2]
      rfl

theorem checkedRow_eq {ws : List Nat} {cells : List String} (h : Fits ws cells) :
    checkedRow ws cells = .ok (row ws cells) := by
  rw [checkedRow, mapM_checkedCell h]
  rfl

theorem mapM_checkedRow {ws : List Nat} {rows : List (List String)}
    (h : ∀ cells ∈ rows, Fits ws cells) : rows.mapM (checkedRow ws) = .ok (rows.map (row ws)) := by
  induction rows with
  | nil => rfl
  | cons cells rows ih =>
    obtain ⟨hcells, hrows⟩ := List.forall_mem_cons.1 h
    rw [List.mapM_cons, checkedRow_eq hcells, ih hrows]
    rfl

theorem checkedLines_eq (r : Report) : checkedLines r = .ok (lines r) := by
  obtain ⟨heading, rows⟩ := List.forall_mem_cons.1 (fits_widths r)
  rw [checkedLines, checkedRow_eq heading, mapM_checkedRow rows]
  rfl

end Padding

section Ruled

variable {edge : Char} {stretches : List (List Char)}

def ruled (edge : Char) (stretches : List (List Char)) : List Char :=
  stretches.flatMap (edge :: ·) ++ [edge]

def offsetIn : List Nat → Nat → Nat
  | n :: lengths, i + 1 => n + 1 + offsetIn lengths i
  | _, _ => 0

/-- The line has edges at the offsets and the stretches between them. -/
structure IsRuled (offset : Nat → Nat) (edge : Char) (stretches : List (List Char))
    (cs : List Char) : Prop where
  length_eq : cs.length = offset stretches.length + 1
  edges : ∀ i ≤ stretches.length, cs[offset i]? = some edge
  between : ∀ i s, stretches[i]? = some s → (cs.take (offset (i + 1))).drop (offset i + 1) = s

theorem ruled_append (a b : List (List Char)) :
    ruled edge (a ++ b) = a.flatMap (edge :: ·) ++ ruled edge b := by
  rw [ruled, List.flatMap_append, List.append_assoc, ruled]

theorem ruled_cons (s : List Char) (stretches : List (List Char)) :
    ruled edge (s :: stretches) = edge :: (s ++ ruled edge stretches) := by
  rw [ruled, List.flatMap_cons, List.append_assoc, List.cons_append, ruled]

theorem ruled_eq (edge : Char) (stretches : List (List Char)) :
    ruled edge stretches = edge :: stretches.flatMap (· ++ [edge]) := by
  induction stretches with
  | nil => rfl
  | cons s stretches ih =>
    rw [ruled_cons, ih, List.flatMap_cons, List.append_assoc, List.singleton_append]

theorem offsetIn_zero (lengths : List Nat) : offsetIn lengths 0 = 0 := by cases lengths <;> rfl

theorem offsetIn_append (edge : Char) (a b : List (List Char)) :
    offsetIn ((a ++ b).map List.length) a.length = (a.flatMap (edge :: ·)).length := by
  induction a with
  | nil => exact offsetIn_zero _
  | cons s a ih =>
    rw [List.cons_append, List.map_cons, List.length_cons, offsetIn, ih, List.flatMap_cons,
      List.length_append, List.length_cons]

theorem isRuled_ruled (edge : Char) (stretches : List (List Char)) :
    IsRuled (offsetIn (stretches.map List.length)) edge stretches (ruled edge stretches) where
  length_eq := by
    have last := offsetIn_append edge stretches []
    rw [List.append_nil] at last
    rw [last, ruled, List.length_append, List.length_singleton]
  edges i le := by
    obtain ⟨a, b, rfl, rfl⟩ : ∃ a b, stretches = a ++ b ∧ a.length = i :=
      ⟨_, _, (List.take_append_drop i stretches).symm, List.length_take_of_le le⟩
    rw [offsetIn_append edge, ruled_append, List.getElem?_append_right (Nat.le_refl _), Nat.sub_self,
      ruled_eq]
    rfl
  between i s hs := by
    obtain ⟨a, b, rfl, rfl⟩ : ∃ a b, stretches = a ++ s :: b ∧ a.length = i := by
      obtain ⟨lt, rfl⟩ := List.getElem?_eq_some_iff.1 hs
      exact ⟨_, _, by rw [List.getElem_cons_drop lt, List.take_append_drop],
        List.length_take_of_le lt.le⟩
    have here := offsetIn_append edge a (s :: b)
    have next : offsetIn ((a ++ s :: b).map List.length) (a.length + 1) =
        (a.flatMap (edge :: ·) ++ [edge]).length + s.length := by
      have appended := offsetIn_append edge (a ++ [s]) b
      rw [List.append_assoc, List.singleton_append, List.length_append] at appended
      simp only [List.length_singleton] at appended
      rw [appended]
      simp
      omega
    have line : ruled edge (a ++ s :: b) =
        (a.flatMap (edge :: ·) ++ [edge]) ++ (s ++ ruled edge b) := by
      rw [ruled_append, ruled_cons, List.append_assoc, List.singleton_append]
    rw [here, next, line, List.take_length_add_append, List.take_left]
    exact List.drop_left' (by simp)

end Ruled

section Lines

variable {ws : List Nat} {cells : List String}

theorem toList_pushn (s : String) (c : Char) (n : Nat) :
    (s.pushn c n).toList = s.toList ++ List.replicate n c := by
  rw [String.pushn_eq_repeat_push]
  induction n with
  | zero => simp [Nat.repeat]
  | succ n ih => rw [Nat.repeat, String.toList_push, ih, List.append_assoc, List.replicate_succ']

def dashes (w : Nat) : List Char := List.replicate (w + 2) '-'

def filledUp (c : String) (w : Nat) : List Char :=
  ' ' :: (c.toList ++ List.replicate (w - c.length + 1) ' ')

theorem toList_rule (ws : List Nat) : (rule ws).toList = ruled '+' (ws.map dashes) := by
  have run (s : String) : (ws.foldl (fun s w => s ++ "".pushn '-' (w + 2) ++ "+") s).toList =
      s.toList ++ (ws.map dashes).flatMap (· ++ ['+']) := by
    induction ws generalizing s with
    | nil => simp
    | cons w ws ih => simp [ih, toList_pushn, dashes]
  rw [rule, run, ruled_eq]
  rfl

theorem toList_row (ws : List Nat) (cells : List String) :
    (row ws cells).toList = ruled '|' (List.zipWith filledUp cells ws) := by
  have shown (c : String) (w : Nat) : (cell c w).toList = filledUp c w ++ ['|'] := by
    simp [cell, filledUp, toList_pushn]
  have run : (List.zipWith cell cells ws).flatMap String.toList =
      (List.zipWith filledUp cells ws).flatMap (· ++ ['|']) := by
    induction cells generalizing ws with
    | nil => rfl
    | cons c cs ih =>
      cases ws with
      | nil => rfl
      | cons w ws => simp only [List.zipWith_cons_cons, List.flatMap_cons, shown, ih]
  rw [row, String.toList_append, String.toList_join, run, ruled_eq]
  rfl

theorem length_filledUp (h : Fits ws cells) (same : cells.length = ws.length) :
    (List.zipWith filledUp cells ws).map List.length = (ws.map dashes).map List.length := by
  induction cells generalizing ws with
  | nil => rw [List.length_eq_zero_iff.1 same.symm]; rfl
  | cons c cs ih =>
    cases ws with
    | nil => nomatch same
    | cons w ws =>
      have width : (filledUp c w).length = (dashes w).length := by
        have le : c.length ≤ w := h.1
        simp only [filledUp, dashes, List.length_cons, List.length_append, List.length_replicate,
          String.length_toList]
        omega
      rw [List.zipWith_cons_cons, List.map_cons, width, ih h.2 (Nat.succ.inj same)]
      rfl

def IsLeftAligned (c : String) (stretch : List Char) : Prop :=
  ∃ n, stretch = ' ' :: (c.toList ++ List.replicate (n + 1) ' ')

theorem isLeftAligned_filledUp (same : cells.length = ws.length) :
    List.Forall₂ IsLeftAligned cells (List.zipWith filledUp cells ws) := by
  induction cells generalizing ws with
  | nil => exact .nil
  | cons c cs ih =>
    cases ws with
    | nil => nomatch same
    | cons w ws => exact .cons ⟨_, rfl⟩ (ih (Nat.succ.inj same))

def IsBorder (offset : Nat → Nat) (columns : Nat) (line : List Char) : Prop :=
  ∃ stretches, stretches.length = columns ∧ IsRuled offset '+' stretches line ∧
    ∀ s ∈ stretches, ∀ c ∈ s, c = '-'

def ShowsCells (offset : Nat → Nat) (cells : List String) (line : List Char) : Prop :=
  ∃ stretches, IsRuled offset '|' stretches line ∧ List.Forall₂ IsLeftAligned cells stretches

theorem IsBorder.length_eq {offset : Nat → Nat} {columns : Nat} {line : List Char}
    (h : IsBorder offset columns line) : line.length = offset columns + 1 := by
  obtain ⟨stretches, rfl, ruled, -⟩ := h
  exact ruled.length_eq

theorem ShowsCells.length_eq {offset : Nat → Nat} {line : List Char}
    (h : ShowsCells offset cells line) : line.length = offset cells.length + 1 := by
  obtain ⟨stretches, ruled, aligned⟩ := h
  rw [ruled.length_eq, aligned.length_eq]

def offsets (ws : List Nat) : Nat → Nat := offsetIn ((ws.map dashes).map List.length)

theorem isBorder_rule (ws : List Nat) : IsBorder (offsets ws) ws.length (rule ws).toList := by
  refine ⟨ws.map dashes, List.length_map _, ?_, fun s hs c hc => ?_⟩
  · rw [toList_rule]
    exact isRuled_ruled '+' _
  · obtain ⟨w, -, rfl⟩ := List.mem_map.1 hs
    exact List.eq_of_mem_replicate hc

theorem showsCells_row (h : Fits ws cells) (same : cells.length = ws.length) :
    ShowsCells (offsets ws) cells (row ws cells).toList := by
  refine ⟨List.zipWith filledUp cells ws, ?_, isLeftAligned_filledUp same⟩
  rw [toList_row, offsets, ← length_filledUp h same]
  exact isRuled_ruled '|' _

end Lines

section UpperCase

theorem eq_newline_of_mem_upperChar {c : Char} (h : '\n' ∈ Text.upperChar c) : c = '\n' := by
  have code {n : Nat} (hn : '\n' = Char.ofNat n) : n = 10 := by
    have value : (Char.ofNat n).toNat = 10 := congrArg Char.toNat hn.symm
    by_cases valid : n.isValidChar
    · rwa [Char.ofNat, dif_pos valid] at value
    · rw [Char.ofNat, dif_neg valid] at value
      nomatch value
  have sequences : ∀ e ∈ Text.upperSequences, 10 ∉ e.2 := by decide +kernel
  have runs : ∀ e ∈ Text.upperRuns, 10 < (e.1 : Int) + e.2.2.2 := by decide +kernel
  unfold Text.upperChar at h
  dsimp only at h
  split at h
  case h_1 seq found =>
    obtain ⟨front, back, listed, -⟩ := List.lookup_eq_some_iff.1 found
    have entry : (c.toNat, seq) ∈ Text.upperSequences := by rw [listed]; simp
    obtain ⟨n, hn, same⟩ := List.mem_map.1 h
    exact absurd (code same.symm ▸ hn) (sequences _ entry)
  case h_2 =>
    split at h
    case h_1 lo hi step distance found =>
      have distant := runs _ (List.mem_of_find?_eq_some found)
      have within := List.find?_some found
      simp only [Bool.and_eq_true, decide_eq_true_eq] at within
      have value := code (List.mem_singleton.1 h)
      dsimp only at distant
      omega
    case h_2 => exact (List.mem_singleton.1 h).symm

theorem newline_upper {s : String} (h : '\n' ∉ s.toList) : '\n' ∉ (Text.upper s).toList := by
  rw [Text.upper, String.toList_ofList, List.mem_flatMap]
  rintro ⟨c, hc, broken⟩
  exact h (eq_newline_of_mem_upperChar broken ▸ hc)

end UpperCase

section Text

theorem newline_ruled {edge : Char} (he : '\n' ≠ edge) {stretches : List (List Char)}
    (h : ∀ s ∈ stretches, '\n' ∉ s) : '\n' ∉ ruled edge stretches := by
  rw [ruled, List.mem_append, List.mem_singleton, List.mem_flatMap]
  rintro (⟨s, hs, broken⟩ | broken)
  · exact h s hs ((List.mem_cons.1 broken).resolve_left he)
  · exact he broken

theorem newline_rule (ws : List Nat) : '\n' ∉ (rule ws).toList := by
  rw [toList_rule]
  refine newline_ruled (by decide) fun s hs => ?_
  obtain ⟨w, -, rfl⟩ := List.mem_map.1 hs
  exact fun h => absurd (List.eq_of_mem_replicate h) (by decide)

theorem newline_row (ws : List Nat) {cells : List String} (h : ∀ c ∈ cells, '\n' ∉ c.toList) :
    '\n' ∉ (row ws cells).toList := by
  rw [toList_row]
  refine newline_ruled (by decide) fun s hs => ?_
  rw [← List.map_uncurry_zip_eq_zipWith] at hs
  obtain ⟨⟨c, w⟩, hcw, rfl⟩ := List.mem_map.1 hs
  simp [filledUp, h c (List.of_mem_zip hcw).1]

def bordered (border heading : List Char) (rows : List (List Char)) : List (List Char) :=
  [border, heading, border] ++ if rows.isEmpty then [] else rows ++ [border]

theorem forall_mem_bordered {q : List Char → Prop} {border heading : List Char}
    {rows : List (List Char)} (hborder : q border) (hheading : q heading) (hrows : ∀ line ∈ rows, q line) :
    ∀ line ∈ bordered border heading rows, q line := by
  unfold bordered
  split
  · simp [hborder, hheading]
  · simpa [hborder, hheading, or_imp, forall_and] using hrows

def ending (r : Report) : String :=
  (if r.isEmpty then "" else (r.note.map (· ++ "\n")).getD "") ++ "\n"

theorem toList_render (r : Report) : (render [r] .table).toList =
    r.title.toList ++ "\n\n".toList ++
      Text.terminated (bordered (rule (widths r)).toList (row (widths r) (headings r)).toList
        (r.rows.map fun cells => (row (widths r) cells).toList)) ++
      (ending r).toList := by
  have all : (render [r] .table).toList = Text.terminated ((lines r).map String.toList) := by
    simp [render, String.toList_join, Text.terminated, List.flatMap_map]
  rw [all, lines, bordered, ending, Report.isEmpty]
  cases r.rows with
  | nil => simp [Text.terminated]
  | cons first rows => cases r.note <;> simp [Text.terminated, Function.comp_def]

end Text

/-- The title, an empty line, and a table in which each separator stands at one offset in all lines
from the first border to the last, and each cell whole in its column. -/
def IsAligned (r : Report) (text : List Char) : Prop :=
  ∃ (offset : Nat → Nat) (border heading : List Char) (rows : List (List Char)),
    text = r.title.toList ++ "\n\n".toList ++ Text.terminated (bordered border heading rows) ++
        (ending r).toList ∧
      (∀ line ∈ bordered border heading rows,
        '\n' ∉ line ∧ line.length = offset r.header.length + 1) ∧
      offset 0 = 0 ∧ IsBorder offset r.header.length border ∧
      ShowsCells offset (r.header.map Text.upper) heading ∧
      List.Forall₂ (ShowsCells offset) r.rows rows

/-- No padding is ever negative, and a report with a cell for every column is shown as a table. -/
theorem table_aligned (r : Report) :
    checkedLines r = .ok (lines r) ∧
      ((∀ row ∈ r.rows, row.length = r.header.length) →
        (∀ cell ∈ r.header ++ r.rows.flatten, '\n' ∉ cell.toList) →
        IsAligned r (render [r] .table).toList) := by
  refine ⟨checkedLines_eq r, fun complete unbroken => ?_⟩
  obtain ⟨unbrokenHeader, unbrokenRows⟩ := List.forall_mem_append.1 unbroken
  obtain ⟨fitsHeading, fitsRows⟩ := List.forall_mem_cons.1 (fits_widths r)
  have columns : (headings r).length = (widths r).length := by
    rw [length_widths, headings, List.length_map]
  have columnsOf (cells : List String) (h : cells ∈ r.rows) : cells.length = (widths r).length :=
    (complete cells h).trans (length_widths r).symm
  have border := isBorder_rule (widths r)
  rw [length_widths] at border
  have heading := showsCells_row fitsHeading columns
  have shown : ∀ cells ∈ r.rows,
      ShowsCells (offsets (widths r)) cells (row (widths r) cells).toList :=
    fun cells h => showsCells_row (fitsRows cells h) (columnsOf cells h)
  refine ⟨offsets (widths r), _, _, _, toList_render r, ?_, offsetIn_zero _, border, heading, ?_⟩
  · refine forall_mem_bordered ⟨newline_rule _, border.length_eq⟩ ⟨newline_row _ ?_, ?_⟩ ?_
    · exact List.forall_mem_map.2 fun c hc => newline_upper (unbrokenHeader c hc)
    · rw [heading.length_eq, headings, List.length_map]
    · refine List.forall_mem_map.2 fun cells h => ⟨newline_row _ fun c hc => ?_, ?_⟩
      · exact unbrokenRows c (List.mem_flatten_of_mem h hc)
      · rw [(shown cells h).length_eq, complete cells h]
  · rw [List.forall₂_map_right_iff, List.forall₂_same]
    exact shown

def sizes : Report where
  title := "Sizes:"
  header := ["Identity", "Größe"]
  rows := [["web/0", "|12|"], ["", "3"]]
  note := none

theorem table_aligned_sizes :
    ((∀ row ∈ sizes.rows, row.length = sizes.header.length) ∧
        ∀ cell ∈ sizes.header ++ sizes.rows.flatten, '\n' ∉ cell.toList) ∧
      checkedLines sizes = .ok (lines sizes) ∧ IsAligned sizes (render [sizes] .table).toList := by
  have complete : ∀ row ∈ sizes.rows, row.length = sizes.header.length := by decide
  have unbroken : ∀ cell ∈ sizes.header ++ sizes.rows.flatten, '\n' ∉ cell.toList := by decide
  exact ⟨⟨complete, unbroken⟩, (table_aligned sizes).1, (table_aligned sizes).2 complete unbroken⟩

example : lines sizes = ["Sizes:", "",
    "+----------+--------+",
    "| IDENTITY | GRÖSSE |",
    "+----------+--------+",
    "| web/0    | |12|   |",
    "|          | 3      |",
    "+----------+--------+", ""] := by
  decide +kernel

end FleetPosture.Report.Table
