import FleetPosture.Proofs.Yaml.Inline
import FleetPosture.Yaml.ScalarText

/-! The line of a text reads as the text. A scalar on one line keeps all its characters, so what is
read so far is the reversed line, cut where its last blanks begin; quotes and escapes add one character
at a time to it, and so do the characters of a plain scalar up to the colon or the line end after it. -/

namespace FleetPosture.Yaml

namespace Cursor

@[simp]
theorem rest_skip (c : Cursor) (n : Nat) : (c.skip n).rest = c.rest.drop n := rfl

@[simp]
theorem line_skip (c : Cursor) (n : Nat) : (c.skip n).line = c.line := rfl

@[simp]
theorem column_skip (c : Cursor) (n : Nat) : (c.skip n).column = c.column + n := rfl

@[simp]
theorem index_skip (c : Cursor) (n : Nat) : (c.skip n).index = c.index + n := rfl

@[simp]
theorem skip_skip (c : Cursor) (m n : Nat) : (c.skip m).skip n = c.skip (m + n) := by
  simp only [skip, List.drop_drop, Nat.add_assoc]

section Ahead

variable {c : Cursor} {x : Char} {r : List Char}

theorem peek?_cons (hr : c.rest = x :: r) : c.peek? = some x := by rw [peek?, hr, List.head?_cons]

theorem peekAt?_one (hr : c.rest = x :: r) : c.peekAt? 1 = r.head? := by
  rw [peekAt?, hr, List.getElem?_cons_succ, List.head?_eq_getElem?]

theorem at?_zero (hr : c.rest = x :: r) (y : Char) : c.at? 0 y = (x == y) := by rw [at?, hr]; rfl

theorem at?_one (hr : c.rest = x :: r) (y : Char) : c.at? 1 y = (r.head? == some y) := by
  rw [at?, hr, List.getElem?_cons_succ, List.head?_eq_getElem?]

theorem atMarker_of_ne (hr : c.rest = x :: r) {y : Char} (h : x ≠ y) : c.atMarker y = false := by
  rw [atMarker, at?_zero hr, beq_false_of_ne h, Bool.and_false]
  rfl

theorem rest_skip_length {v : List Char} (hr : c.rest = v ++ r) : (c.skip v.length).rest = r := by
  rw [rest_skip, hr, List.drop_left]

end Ahead

theorem atDocumentMarker_of_column {c : Cursor} (h : c.column ≠ 0) : c.atDocumentMarker = false := by
  simp [atDocumentMarker, atMarker, h]

def nextLine (c : Cursor) (text : List Char) : Cursor :=
  ⟨text.dropWhile isSpace, c.line + 1, (text.takeWhile isSpace).length,
    c.index + 1 + (text.takeWhile isSpace).length⟩

theorem drop_takeWhile_length (p : Char → Bool) (text : List Char) :
    text.drop (text.takeWhile p).length = text.dropWhile p := by
  have split : text.takeWhile p ++ text.dropWhile p = text := List.takeWhile_append_dropWhile
  calc text.drop (text.takeWhile p).length
      = (text.takeWhile p ++ text.dropWhile p).drop (text.takeWhile p).length := by rw [split]
    _ = text.dropWhile p := List.drop_left

section Newline

variable {c : Cursor} {text : List Char}

theorem lineBreak_newline (h : c.rest = '\n' :: text) : c.lineBreak = '\n' := by
  rw [lineBreak, h]
  rfl

theorem skipBreak_newline (h : c.rest = '\n' :: text) :
    c.skipBreak = ⟨text, c.line + 1, 0, c.index + 1⟩ := by
  rw [skipBreak, h]
  rfl

theorem skip_skipBreak (h : c.rest = '\n' :: text) :
    c.skipBreak.skip (text.takeWhile isSpace).length = c.nextLine text := by
  rw [skipBreak_newline h, skip, drop_takeWhile_length, Nat.zero_add, nextLine]

end Newline

end Cursor

namespace Folded

def line (reversed : List Char) : Folded :=
  ⟨reversed.dropWhile isGap, reversed.takeWhile isGap, false, none, []⟩

variable {c : Char} {reversed : List Char}

theorem addGap_line (h : isGap c = true) : (line reversed).addGap c = line (c :: reversed) := by
  simp [line, addGap, h]

theorem pending_line : (line reversed).pending ++ (line reversed).reversed = reversed :=
  List.takeWhile_append_dropWhile

theorem add_line (h : isGap c = false) : (line reversed).add c = line (c :: reversed) := by
  rw [add, pending_line]
  simp [line, h]

theorem text_flush_line : (line reversed).flush.text = String.ofList reversed.reverse := by
  rw [text, flush, pending_line]

theorem text_line (h : ∀ c ∈ reversed.head?, isGap c = false) :
    (line reversed).text = String.ofList reversed.reverse := by
  cases reversed with
  | nil => rfl
  | cons c reversed => simp [line, text, h c rfl]

theorem isPending_line_cons : (line (c :: reversed)).isPending = isGap c := by
  cases h : isGap c <;> simp [line, isPending, h]

end Folded

section Quoted

variable {single : Bool} {x : Char} {c : Cursor} {reversed r : List Char}

theorem quotedFrom_self (single : Bool) (hx : isInline x = true) (mark : x ≠ quoteMark single)
    (backslash : single = false → x ≠ '\\') (hr : c.rest = x :: r) (hc : c.column ≠ 0) (fuel : Nat) :
    quotedFrom single (fuel + 1) (.line reversed) c =
      quotedFrom single fuel (.line (x :: reversed)) (c.skip 1) := by
  have next : c.peek? = some x := Cursor.peek?_cons hr
  rw [quotedFrom, Cursor.atDocumentMarker_of_column hc, if_neg Bool.false_ne_true, next]
  dsimp only
  cases gap : isGap x with
  | true => rw [if_pos rfl, Folded.addGap_line gap]
  | false =>
    rw [if_neg Bool.false_ne_true, isBreak_of_isInline hx, if_neg Bool.false_ne_true, Folded.add_line gap]
    cases single with
    | true => exact if_neg mark
    | false => exact (if_neg mark).trans (if_neg (backslash rfl))

theorem quotedFrom_twice (hr : c.rest = '\'' :: '\'' :: r) (hc : c.column ≠ 0) (fuel : Nat) :
    quotedFrom true (fuel + 1) (.line reversed) c =
      quotedFrom true fuel (.line ('\'' :: reversed)) (c.skip 2) := by
  have next : c.peek? = some '\'' := Cursor.peek?_cons hr
  have again : c.at? 1 '\'' = true := Cursor.at?_one hr _
  rw [quotedFrom, Cursor.atDocumentMarker_of_column hc, if_neg Bool.false_ne_true, next]
  simp only [isGap, isBreak, again, ← Folded.add_line (c := '\'') rfl]
  rfl

theorem quotedFrom_escape {y z : Char} (hy : escape? y = some (.inl z)) (hb : isBreak y = false)
    (hz : isGap z = false) (hr : c.rest = '\\' :: y :: r) (hc : c.column ≠ 0) (fuel : Nat) :
    quotedFrom false (fuel + 1) (.line reversed) c =
      quotedFrom false fuel (.line (z :: reversed)) (c.skip 2) := by
  have next : c.peek? = some '\\' := Cursor.peek?_cons hr
  have after : c.peekAt? 1 = some y := Cursor.peekAt?_one hr
  rw [quotedFrom, Cursor.atDocumentMarker_of_column hc, if_neg Bool.false_ne_true, next]
  simp only [after, hb, hy, ← Folded.add_line hz]
  rfl

theorem quotedFrom_code (digits : List Char) {z : Char} (four : digits.length = 4)
    (code : escapedCode? digits = some z) (hz : isGap z = false)
    (hr : c.rest = '\\' :: 'u' :: (digits ++ r)) (hc : c.column ≠ 0) (fuel : Nat) :
    quotedFrom false (fuel + 1) (.line reversed) c =
      quotedFrom false fuel (.line (z :: reversed)) (c.skip 6) := by
  have next : c.peek? = some '\\' := Cursor.peek?_cons hr
  have after : c.peekAt? 1 = some 'u' := Cursor.peekAt?_one hr
  have taken : (c.rest.drop 2).take 4 = digits := by
    rw [hr, ← four]
    exact List.take_left
  rw [quotedFrom, Cursor.atDocumentMarker_of_column hc, if_neg Bool.false_ne_true, next]
  simp only [after, escape?, taken, four, code, ← Folded.add_line hz]
  rfl

theorem spelled_ne_nil (single : Bool) (hx : isInline x = true) : spelled single x ≠ [] := by
  unfold spelled
  split_ifs
  · exact List.cons_ne_nil _ _
  · exact List.cons_ne_nil _ _
  · rcases escaped_of_isInline hx with ⟨-, -, -, self⟩ | rfl | rfl | rfl | rfl | rfl
    · exact self ▸ List.cons_ne_nil _ _
    all_goals decide

theorem quotedFrom_spelled_char (hx : isInline x = true) (hr : c.rest = spelled single x ++ r)
    (hc : c.column ≠ 0) (fuel : Nat) :
    quotedFrom single (fuel + 1) (.line reversed) c =
      quotedFrom single fuel (.line (x :: reversed)) (c.skip (spelled single x).length) := by
  cases single with
  | true =>
    by_cases quote : x = '\''
    · subst quote
      exact quotedFrom_twice hr hc fuel
    · have self : spelled true x = [x] := by rw [spelled, if_pos rfl, if_neg quote]
      rw [self] at hr ⊢
      exact quotedFrom_self true hx quote (fun e => absurd e (by decide)) hr hc fuel
  | false =>
    rcases escaped_of_isInline hx with ⟨quote, backslash, -, self⟩ | rfl | rfl | rfl | rfl | rfl
    · have self : spelled false x = [x] := self
      rw [self] at hr ⊢
      exact quotedFrom_self false hx quote (fun _ => backslash) hr hc fuel
    · exact quotedFrom_escape rfl rfl rfl hr hc fuel
    · exact quotedFrom_escape rfl rfl rfl hr hc fuel
    · exact quotedFrom_code "FEFF".toList rfl rfl rfl hr hc fuel
    · exact quotedFrom_code "FFFE".toList rfl rfl rfl hr hc fuel
    · exact quotedFrom_code "FFFF".toList rfl rfl rfl hr hc fuel

theorem quotedFrom_spelled {cs : List Char} (h : ∀ x ∈ cs, isInline x = true)
    (hr : c.rest = cs.flatMap (spelled single) ++ r) (hc : c.column ≠ 0) (fuel : Nat) :
    quotedFrom single (cs.length + fuel) (.line reversed) c =
      quotedFrom single fuel (.line (cs.reverse ++ reversed))
        (c.skip (cs.flatMap (spelled single)).length) := by
  induction cs generalizing c reversed with
  | nil => rw [List.length_nil, Nat.zero_add]; rfl
  | cons x cs ih =>
    obtain ⟨hx, hcs⟩ := List.forall_mem_cons.1 h
    rw [List.flatMap_cons, List.append_assoc] at hr
    have after : (c.skip (spelled single x).length).rest = cs.flatMap (spelled single) ++ r :=
      Cursor.rest_skip_length hr
    rw [List.length_cons, Nat.add_right_comm, quotedFrom_spelled_char hx hr hc,
      ih hcs after (Nat.ne_of_gt (Nat.lt_of_lt_of_le (Nat.pos_of_ne_zero hc) (Nat.le_add_right _ _)))]
    simp

theorem quotedFrom_mark (hr : c.rest = quoteMark single :: r) (last : r.head? ≠ some '\'')
    (hc : c.column ≠ 0) (fuel : Nat) :
    quotedFrom single (fuel + 1) (.line reversed) c =
      some (String.ofList reversed.reverse, c.skip 1) := by
  have next : c.peek? = some (quoteMark single) := Cursor.peek?_cons hr
  have once : c.at? 1 '\'' = false := by
    rw [Cursor.at?_one hr]
    exact beq_false_of_ne last
  rw [quotedFrom, Cursor.atDocumentMarker_of_column hc, if_neg Bool.false_ne_true, next,
    ← Folded.text_flush_line]
  cases single with
  | true => simp only [quoteMark, once]; rfl
  | false => rfl

theorem length_le_flatMap_spelled {cs : List Char} (h : ∀ x ∈ cs, isInline x = true) :
    cs.length ≤ (cs.flatMap (spelled single)).length := by
  induction cs with
  | nil => exact Nat.le_refl _
  | cons x cs ih =>
    obtain ⟨hx, hcs⟩ := List.forall_mem_cons.1 h
    have some_char : 0 < (spelled single x).length := List.length_pos_iff.2 (spelled_ne_nil single hx)
    have others := ih hcs
    simp only [List.flatMap_cons, List.length_append, List.length_cons]
    omega

theorem quoted?_quotedText {cs : List Char} (h : ∀ x ∈ cs, isInline x = true)
    (hr : c.rest = quotedText single cs ++ r) (last : r.head? ≠ some '\'') :
    quoted? single c = some (String.ofList cs, c.skip (quotedText single cs).length) := by
  simp only [quotedText, List.cons_append, List.append_assoc, List.nil_append] at hr
  have after : (c.skip 1).rest = cs.flatMap (spelled single) ++ quoteMark single :: r := by
    rw [Cursor.rest_skip, hr]
    rfl
  have column : (c.skip 1).column ≠ 0 := Nat.succ_ne_zero _
  obtain ⟨fuel, enough⟩ : ∃ fuel, c.rest.length + 1 = cs.length + (fuel + 1) := by
    have shorter : cs.length ≤ (cs.flatMap (spelled single)).length := length_le_flatMap_spelled h
    refine ⟨c.rest.length - cs.length, ?_⟩
    simp only [hr, List.length_cons, List.length_append]
    omega
  have final : ((c.skip 1).skip (cs.flatMap (spelled single)).length).rest = quoteMark single :: r :=
    Cursor.rest_skip_length after
  rw [quoted?, enough, show Folded.empty = .line [] from rfl, quotedFrom_spelled h after column,
    quotedFrom_mark final last (by simp)]
  simp only [List.append_nil, List.reverse_reverse, Cursor.skip_skip, quotedText, List.length_cons,
    List.length_append, List.length_nil, Nat.add_comm 1, Nat.add_assoc]

end Quoted

section Plain

variable {indent : Int} {x : Char} {c : Cursor} {reversed r : List Char}

/-- A character inside a plain scalar: not a colon that ends a word, and after a blank neither a number
sign nor outside the indentation. -/
theorem plainFrom_cons (hr : c.rest = x :: r) (inside : isBreak x = false)
    (colon : x = ':' → endsWord r.head? = false)
    (start : (Folded.line reversed).isPending = true → x ≠ '#' ∧ indent ≤ c.column)
    (unmarked : c.atDocumentMarker = false) (fuel : Nat) :
    plainFrom false indent (fuel + 1) (.line reversed) c =
      plainFrom false indent fuel (.line (x :: reversed)) (c.skip 1) := by
  have next : c.peek? = some x := Cursor.peek?_cons hr
  have after : c.peekAt? 1 = r.head? := Cursor.peekAt?_one hr
  rw [plainFrom, next]
  dsimp only
  cases gap : isGap x with
  | true => rw [if_pos rfl, if_neg fun e => Bool.false_ne_true e.1, Folded.addGap_line gap]
  | false =>
    have goes_on : ¬ ((Folded.line reversed).isPending = true ∧
        (x = '#' ∨ ¬ false = true ∧ (c.column : Int) < indent)) := by
      rintro ⟨pending, number | ⟨-, outside⟩⟩
      · exact (start pending).1 number
      · exact Int.not_lt.2 (start pending).2 outside
    have no_value : ¬ (x = ':' ∧ endsWord (c.peekAt? 1) = true) := by
      rintro ⟨e, ends⟩
      rw [after, colon e] at ends
      exact Bool.false_ne_true ends
    rw [if_neg Bool.false_ne_true, inside, if_neg Bool.false_ne_true, unmarked,
      if_neg Bool.false_ne_true, if_neg goes_on, if_neg no_value, if_neg fun e => Bool.false_ne_true e.1,
      if_neg fun e => Bool.false_ne_true e.1, Folded.add_line gap]

theorem hasInnerIndicator_cons {cs : List Char} (h : hasInnerIndicator (x :: cs) = false) :
    (x = ':' → endsWrittenWord cs = false) ∧ (isGap x = true → cs.head? ≠ some '#') ∧
      hasInnerIndicator cs = false := by
  simp only [hasInnerIndicator, Bool.or_eq_false_iff, Bool.and_eq_false_iff, beq_eq_false_iff_ne] at h
  obtain ⟨⟨colon, number⟩, inner⟩ := h
  refine ⟨fun e => colon.resolve_left fun ne => ne e, fun gap => number.resolve_left fun e => ?_, inner⟩
  simp only [isGap, Bool.or_eq_true, beq_iff_eq] at gap
  rcases gap with rfl | rfl <;> exact absurd e (by decide)

theorem endsWord_of_endsWrittenWord {cs : List Char} (h : endsWrittenWord cs = false) (r : List Char) :
    endsWord (cs ++ r).head? = false := by
  cases cs with
  | nil => exact absurd h (by decide)
  | cons y cs =>
    simp only [endsWrittenWord, Bool.or_eq_false_iff, isWrittenBreak] at h
    simp only [List.cons_append, List.head?_cons, endsWord, isGap, isBreak, Bool.or_eq_false_iff]
    exact ⟨h.1.1, h.2⟩

theorem plainFrom_text {cs : List Char} (inner : hasInnerIndicator cs = false)
    (oneLine : ∀ x ∈ cs, isBreak x = false) (hr : c.rest = cs ++ r)
    (start : (Folded.line reversed).isPending = true → cs.head? ≠ some '#')
    (deep : indent ≤ c.column ∨
      (Folded.line reversed).isPending = false ∧ ∀ x ∈ cs, isGap x = false)
    (unmarked : c.atDocumentMarker = false) (fuel : Nat) :
    plainFrom false indent (cs.length + fuel) (.line reversed) c =
      plainFrom false indent fuel (.line (cs.reverse ++ reversed)) (c.skip cs.length) := by
  induction cs generalizing c reversed with
  | nil => rw [List.length_nil, Nat.zero_add]; rfl
  | cons x cs ih =>
    obtain ⟨hx, hcs⟩ := List.forall_mem_cons.1 oneLine
    obtain ⟨colon, number, inner⟩ := hasInnerIndicator_cons inner
    have after : (c.skip 1).rest = cs ++ r := by rw [Cursor.rest_skip, hr]; rfl
    have inside (pending : (Folded.line reversed).isPending = true) : indent ≤ c.column :=
      deep.resolve_right fun e => Bool.false_ne_true (e.1.symm.trans pending)
    have further : indent ≤ (c.skip 1).column ∨
        (Folded.line (x :: reversed)).isPending = false ∧ ∀ x ∈ cs, isGap x = false := by
      rcases deep with deep | ⟨-, solid⟩
      · left
        rw [Cursor.column_skip]
        omega
      · right
        rw [Folded.isPending_line_cons]
        exact List.forall_mem_cons.1 solid
    rw [List.length_cons, Nat.add_right_comm,
      plainFrom_cons hr hx (fun e => endsWord_of_endsWrittenWord (colon e) r)
        (fun pending => ⟨fun e => start pending (congrArg some e), inside pending⟩) unmarked,
      ih inner hcs after (by rwa [Folded.isPending_line_cons]) further
        (Cursor.atDocumentMarker_of_column (Nat.succ_ne_zero _))]
    simp [Nat.add_comm]

theorem plainFrom_colon (hr : c.rest = ':' :: r) (ends : endsWord r.head? = true)
    (unmarked : c.column ≠ 0) (f : Folded) (fuel : Nat) :
    plainFrom false indent (fuel + 1) f c = some (f.text, f.broken, c) := by
  have next : c.peek? = some ':' := Cursor.peek?_cons hr
  have value : ':' = ':' ∧ endsWord (c.peekAt? 1) = true := by
    rw [Cursor.peekAt?_one hr]
    exact ⟨rfl, ends⟩
  rw [plainFrom, next]
  dsimp only
  rw [if_neg (by decide), if_neg (by decide), Cursor.atDocumentMarker_of_column unmarked,
    if_neg Bool.false_ne_true, if_pos value, ite_self]

end Plain

def startsToken : List Char → Bool
  | [] => true
  | x :: _ => !(isGap x || isBreak x || x == '#' || x == '\ufeff')

section Plain

variable {indent : Int} {c : Cursor} {f : Folded} {text : List Char}

theorem plainFrom_indentation (broken : f.broken = true) (hr : c.rest = text)
    (starts : startsToken (text.dropWhile isSpace) = true)
    (shallow : c.column + (text.takeWhile isSpace).length < indent) {fuel : Nat}
    (enough : (text.takeWhile isSpace).length < fuel) :
    plainFrom false indent fuel f c =
      some (f.text, true, c.skip (text.takeWhile isSpace).length) := by
  obtain ⟨fuel, rfl⟩ := Nat.exists_eq_succ_of_ne_zero (Nat.ne_of_gt (Nat.zero_lt_of_lt enough))
  induction text generalizing c fuel with
  | nil =>
    have next : c.peek? = none := by rw [Cursor.peek?, hr]; rfl
    rw [plainFrom, next, broken]
    rfl
  | cons x text ih =>
    have next : c.peek? = some x := Cursor.peek?_cons hr
    rw [plainFrom, next]
    dsimp only
    cases space : isSpace x with
    | true =>
      have gap : isGap x = true := by rw [isGap, show (x == ' ') = true from space, Bool.true_or]
      have tab : x ≠ '\t' := by
        rintro rfl
        exact absurd space (by decide)
      rw [List.takeWhile_cons_of_pos space, List.length_cons] at shallow enough ⊢
      rw [List.dropWhile_cons_of_pos space] at starts
      obtain ⟨fuel, rfl⟩ := Nat.exists_eq_succ_of_ne_zero (n := fuel) (by omega)
      rw [gap, if_pos rfl, if_neg fun e => tab e.2.2, Folded.addGap, broken, if_pos rfl,
        ih (by rw [Cursor.rest_skip, hr]; rfl) starts (by rw [Cursor.column_skip]; omega) fuel (by omega),
        Cursor.skip_skip, Nat.add_comm]
    | false =>
      rw [List.takeWhile_cons_of_neg (by rw [space]; decide)] at shallow ⊢
      rw [List.dropWhile_cons_of_neg (by rw [space]; decide)] at starts
      simp only [startsToken, Bool.not_eq_true', Bool.or_eq_false_iff] at starts
      have stop : f.isPending = true ∧ (x = '#' ∨ ¬ false = true ∧ (c.column : Int) < indent) :=
        ⟨by rw [Folded.isPending, broken, Bool.true_or], .inr ⟨Bool.false_ne_true, by simpa using shallow⟩⟩
      rw [starts.1.1.1, if_neg Bool.false_ne_true, starts.1.1.2, if_neg Bool.false_ne_true,
        if_pos stop, ite_self, broken]
      rfl

theorem plainFrom_newline (hr : c.rest = '\n' :: text)
    (starts : startsToken (text.dropWhile isSpace) = true)
    (shallow : (text.takeWhile isSpace).length < indent) {reversed : List Char}
    (solid : ∀ x ∈ reversed.head?, isGap x = false) :
    plainFrom false indent (text.length + 2) (.line reversed) c =
      some (String.ofList reversed.reverse, true, c.nextLine text) := by
  have next : c.peek? = some '\n' := Cursor.peek?_cons hr
  have fuel : (text.takeWhile isSpace).length < text.length + 1 :=
    Nat.lt_succ_of_le (List.takeWhile_prefix isSpace).length_le
  have below : c.skipBreak.rest = text := by rw [Cursor.skipBreak_newline hr]
  have column : (c.skipBreak.column : Int) = 0 := by rw [Cursor.skipBreak_newline hr]; rfl
  rw [plainFrom, next]
  dsimp only
  rw [if_neg (by decide), if_pos (by decide), Cursor.lineBreak_newline hr,
    plainFrom_indentation rfl below starts (by omega) fuel, ← Folded.text_line solid,
    Cursor.skip_skipBreak hr]
  rfl

theorem plain?_text {cs : List Char} (ok : canBePlain cs = true) (oneLine : ∀ x ∈ cs, isInline x = true)
    (hr : c.rest = cs ++ '\n' :: text) (starts : startsToken (text.dropWhile isSpace) = true)
    (shallow : (text.takeWhile isSpace).length < indent) (deep : indent ≤ c.column)
    (column : c.column ≠ 0) :
    plain? false indent c = some (String.ofList cs, true, (c.skip cs.length).nextLine text) := by
  simp only [canBePlain, Bool.not_eq_true', Bool.or_eq_false_iff] at ok
  obtain ⟨⟨⟨⟨⟨⟨-, inner⟩, -⟩, -⟩, -⟩, -⟩, last⟩ := ok
  have solid : ∀ x ∈ (cs.reverse ++ []).head?, isGap x = false := by
    intro x hx
    rw [List.append_nil, List.head?_reverse] at hx
    rw [isGap_of_isInline (oneLine x (List.mem_of_getLast? hx))]
    exact Bool.eq_false_iff.2 fun space => Bool.false_ne_true (by rw [← last, hx, Option.any_some, space])
  have fuel : c.rest.length + 1 = cs.length + (text.length + 2) := by
    rw [hr, List.length_append, List.length_cons]
    rfl
  rw [plain?, fuel, show Folded.empty = .line [] from rfl,
    plainFrom_text inner (fun x hx => isBreak_of_isInline (oneLine x hx)) hr
      (fun e => absurd e (by decide))
      (.inl deep) (Cursor.atDocumentMarker_of_column column),
    plainFrom_newline (Cursor.rest_skip_length hr) starts shallow solid,
    List.append_nil, List.reverse_reverse]

theorem plain?_name {name : List Char} (ne : name ≠ []) (word : ∀ x ∈ name, x.isAlphanum = true)
    (hr : c.rest = name ++ ':' :: text) (ends : endsWord text.head? = true)
    (unmarked : c.atDocumentMarker = false) :
    plain? false indent c = some (String.ofList name, false, c.skip name.length) := by
  have oneLine (x : Char) (hx : x ∈ name) : isBreak x = false :=
    isBreak_of_isInline (isInline_of_isAlphanum (word x hx))
  have solid : ∀ x ∈ (name.reverse ++ []).head?, isGap x = false := by
    intro x hx
    rw [List.append_nil, List.head?_reverse] at hx
    exact isGap_of_isAlphanum (word x (List.mem_of_getLast? hx))
  have column : (c.skip name.length).column ≠ 0 := by
    have := List.length_pos_iff.2 ne
    rw [Cursor.column_skip]
    omega
  have fuel : c.rest.length + 1 = name.length + ((text.length + 1) + 1) := by
    rw [hr, List.length_append, List.length_cons]
    rfl
  rw [plain?, fuel, show Folded.empty = .line [] from rfl,
    plainFrom_text (hasInnerIndicator_of_isAlphanum word) oneLine hr (fun e => absurd e (by decide))
      (.inr ⟨rfl, fun x hx => isGap_of_isAlphanum (word x hx)⟩) unmarked,
    plainFrom_colon (Cursor.rest_skip_length hr) ends column, Folded.text_line solid,
    List.append_nil, List.reverse_reverse]
  rfl

end Plain
end FleetPosture.Yaml
