import FleetPosture.Proofs.Text.Words
import FleetPosture.Yaml.Cursor
import FleetPosture.Yaml.Written
import Mathlib.Tactic.SplitIfs

/-! A text without control characters and line separators is written on one line: as it is, between
single quotes, or between double quotes with escapes. Whichever it is, the line holds only characters
that a YAML text may hold. -/

namespace FleetPosture.Yaml

def isInline (c : Char) : Bool :=
  let n := c.toNat
  0x20 ≤ n && !(0x7f ≤ n && n ≤ 0x9f) && n != 0x2028 && n != 0x2029

def Inline (s : String) : Prop := ∀ c ∈ s.toList, isInline c = true

instance (s : String) : Decidable (Inline s) :=
  decidable_of_iff (s.toList.all isInline = true) List.all_eq_true

theorem isBreak_of_isInline {c : Char} (h : isInline c = true) : isBreak c = false := by
  rw [Bool.eq_false_iff]
  intro e
  simp only [isBreak, Bool.or_eq_true, beq_iff_eq] at e
  obtain (((rfl | rfl) | rfl) | rfl) | rfl := e <;> exact absurd h (by decide)

theorem ne_tab_of_isInline {c : Char} (h : isInline c = true) : c ≠ '\t' := by
  rintro rfl
  exact absurd h (by decide)

theorem isGap_of_isInline {c : Char} (h : isInline c = true) : isGap c = isSpace c := by
  rw [isGap, isSpace, beq_false_of_ne (ne_tab_of_isInline h), Bool.or_false]

theorem isAllowed_of_isPrintable {c : Char} (h : isPrintable c = true) : isAllowed c = true := by
  simp only [isPrintable, isAllowed, Bool.or_eq_true, Bool.and_eq_true, beq_iff_eq, bne_iff_ne,
    decide_eq_true_eq] at h ⊢
  omega

/-- The byte order mark and the two characters at the end of the first plane are the only ones that
cannot stand on a line as they are. -/
theorem isPrintable_or_mark {c : Char} (h : isInline c = true) :
    isPrintable c = true ∨ c = '\ufeff' ∨ c = '\ufffe' ∨ c = '\uffff' := by
  have valid : c.toNat < 0xd800 ∨ (0xdfff < c.toNat ∧ c.toNat < 0x110000) := c.valid
  simp only [← Char.toNat_inj, show '\ufeff'.toNat = 0xfeff from rfl,
    show '\ufffe'.toNat = 0xfffe from rfl, show '\uffff'.toNat = 0xffff from rfl]
  simp only [isInline, isPrintable, Bool.or_eq_true, Bool.and_eq_true, Bool.not_eq_true',
    Bool.and_eq_false_iff, beq_iff_eq, bne_iff_ne, decide_eq_true_eq, decide_eq_false_iff_not] at h ⊢
  omega

theorem escaped_of_isInline {c : Char} (h : isInline c = true) :
    (c ≠ '"' ∧ c ≠ '\\' ∧ isPrintable c = true ∧ escaped c = [c]) ∨
      c = '"' ∨ c = '\\' ∨ c = '\ufeff' ∨ c = '\ufffe' ∨ c = '\uffff' := by
  rcases isPrintable_or_mark h with printable | mark
  · unfold escaped
    split
    case h_10 => exact .inr (.inl rfl)
    case h_11 => exact .inr (.inr (.inl rfl))
    case h_15 quote backslash _ _ _ =>
      exact .inl ⟨quote, backslash, printable, if_pos printable⟩
    all_goals exact absurd h (by decide)
  · exact .inr (.inr (.inr mark))

theorem isAllowed_of_mem_escaped {c x : Char} (h : isInline c = true) (hx : x ∈ escaped c) :
    isAllowed x = true := by
  rcases escaped_of_isInline h with ⟨-, -, printable, plain⟩ | rfl | rfl | rfl | rfl | rfl
  · rw [plain, List.mem_singleton] at hx
    exact hx ▸ isAllowed_of_isPrintable printable
  all_goals exact List.all_eq_true.1 (by decide) x hx

def spelled (single : Bool) (c : Char) : List Char :=
  if single then if c = '\'' then [c, c] else [c] else escaped c

def quoteMark (single : Bool) : Char := if single then '\'' else '"'

def quotedText (single : Bool) (cs : List Char) : List Char :=
  quoteMark single :: (cs.flatMap (spelled single) ++ [quoteMark single])

theorem indented_of_oneLine {indent : Nat} {write : Char → List Char} {cs : List Char}
    (h : ∀ c ∈ cs, isInline c = true) : indented indent write false cs = cs.flatMap write := by
  induction cs with
  | nil => rfl
  | cons c cs ih =>
    obtain ⟨hc, hcs⟩ := List.forall_mem_cons.1 h
    have inside : isWrittenBreak c = false := isBreak_of_isInline hc
    rw [indented, inside, ih hcs]
    rfl

theorem endsWithBreak_of_oneLine {cs : List Char} (h : ∀ c ∈ cs, isInline c = true) :
    endsWithBreak cs = false := by
  rw [endsWithBreak, Option.any_eq_false]
  intro c hc
  exact isBreak_of_isInline (h c (List.mem_of_getLast? hc))

theorem singleQuoted_of_oneLine {indent : Nat} {cs : List Char} (h : ∀ c ∈ cs, isInline c = true) :
    singleQuoted indent cs = quotedText true cs := by
  simp only [singleQuoted, indented_of_oneLine h, endsWithBreak_of_oneLine h, Bool.false_eq_true,
    if_false, List.append_nil, quotedText, quoteMark, if_true]
  rfl

def quoteStyle (single : Bool) : Style := if single then .single else .double

/-- The shapes that the line of a text may have. -/
inductive Shape (cs : List Char) : Style → List Char → Prop
  | plain : cs ≠ [] → canBePlain cs = true → Shape cs .plain cs
  | quoted (single : Bool) : (single = true → canBeSingle cs = true) →
      Shape cs (quoteStyle single) (quotedText single cs)

theorem writtenLine_shape {s : String} (h : Inline s) (indent : Nat) :
    ∃ line, writtenLine indent s = line ++ ['\n'] ∧ Shape s.toList (styleOf s) line := by
  have oneLine : s.toList.contains '\n' = false := by
    rw [Bool.eq_false_iff, ne_eq, List.contains_iff_mem]
    exact fun e => absurd (h _ e) (by decide)
  have style : styleOf s =
      if !isAmbiguous s && canBePlain s.toList then .plain
      else if canBeSingle s.toList then .single else .double := by
    rw [styleOf, oneLine]
    rfl
  rw [writtenLine, style]
  split_ifs with plain single
  · rw [Bool.and_eq_true, Bool.not_eq_true'] at plain
    have ne : s.toList ≠ [] := by
      intro e
      simp [isAmbiguous, e] at plain
    exact ⟨_, rfl, .plain ne plain.2⟩
  · exact ⟨_, by rw [singleQuoted_of_oneLine h], .quoted true fun _ => single⟩
  · refine ⟨_, ?_, .quoted false fun e => absurd e (by decide)⟩
    simp only [quotedText, quoteMark, Bool.false_eq_true, if_false, List.cons_append,
      List.append_assoc, List.nil_append]
    rfl

theorem isPrintable_of_needsEscapes {cs : List Char} (h : needsEscapes cs = false)
    (oneLine : ∀ c ∈ cs, isInline c = true) {c : Char} (hc : c ∈ cs) : isPrintable c = true := by
  rw [← Bool.not_eq_false]
  intro bare
  simp only [needsEscapes, Bool.or_eq_false_iff, List.any_eq_false, Bool.and_eq_true,
    Bool.not_eq_true', bne_iff_ne] at h
  exact h.1 c hc ⟨bare, ne_tab_of_isInline (oneLine c hc)⟩

theorem Shape.isAllowed {cs line : List Char} {style : Style} (h : Shape cs style line)
    (oneLine : ∀ c ∈ cs, isInline c = true) : ∀ x ∈ line, isAllowed x = true := by
  have allowed (escapes : needsEscapes cs = false) (c : Char) (hc : c ∈ cs) : Yaml.isAllowed c = true :=
    isAllowed_of_isPrintable (isPrintable_of_needsEscapes escapes oneLine hc)
  have quoted (single : Bool) (inside : ∀ c ∈ cs, ∀ x ∈ spelled single c, Yaml.isAllowed x = true) :
      ∀ x ∈ quotedText single cs, Yaml.isAllowed x = true := by
    have mark : Yaml.isAllowed (quoteMark single) = true := by cases single <;> rfl
    simp only [quotedText, List.mem_cons, List.mem_append, List.mem_flatMap, List.not_mem_nil, or_false]
    rintro x (rfl | ⟨c, hc, hx⟩ | rfl)
    · exact mark
    · exact inside c hc x hx
    · exact mark
  cases h with
  | plain _ ok =>
    simp only [canBePlain, Bool.not_eq_true', Bool.or_eq_false_iff] at ok
    exact allowed ok.1.1.2
  | quoted single ok =>
    refine quoted single fun c hc x hx => ?_
    cases single with
    | true =>
      have ok := ok rfl
      simp only [canBeSingle, Bool.not_eq_true', Bool.or_eq_false_iff] at ok
      have same : x = c := by
        rw [spelled, if_pos rfl] at hx
        split_ifs at hx <;> simpa using hx
      exact same ▸ allowed ok.1.2 c hc
    | false => exact isAllowed_of_mem_escaped (oneLine c hc) hx

section Alphanumeric

variable {x : Char} {cs : List Char}

theorem beq_of_isAlphanum (h : x.isAlphanum = true) (y : Char) (hy : y.isAlphanum = false) :
    (x == y) = false := by
  refine beq_false_of_ne ?_
  rintro rfl
  exact Bool.false_ne_true (hy.symm.trans h)

theorem isInline_of_isAlphanum (h : x.isAlphanum = true) : isInline x = true := by
  have range := Text.isAlphanum_range h
  simp only [isInline, Bool.and_eq_true, Bool.not_eq_true', Bool.and_eq_false_iff, bne_iff_ne,
    decide_eq_true_eq, decide_eq_false_iff_not]
  omega

theorem isPrintable_of_isAlphanum (h : x.isAlphanum = true) : isPrintable x = true := by
  have range := Text.isAlphanum_range h
  simp only [isPrintable, Bool.or_eq_true, Bool.and_eq_true, beq_iff_eq, bne_iff_ne, decide_eq_true_eq]
  omega

theorem isGap_of_isAlphanum (h : x.isAlphanum = true) : isGap x = false := by
  rw [isGap, beq_of_isAlphanum h ' ' rfl, beq_of_isAlphanum h '\t' rfl, Bool.or_false]

theorem isWrittenBreak_of_isAlphanum (h : x.isAlphanum = true) : isWrittenBreak x = false :=
  isBreak_of_isInline (isInline_of_isAlphanum h)

theorem endsWrittenWord_of_isAlphanum (h : x.isAlphanum = true) (r : List Char) :
    endsWrittenWord (x :: r) = false := by
  simp only [endsWrittenWord, isWrittenBreak_of_isAlphanum h, beq_of_isAlphanum h ' ' rfl,
    beq_of_isAlphanum h '\t' rfl, beq_of_isAlphanum h '\x00' rfl, Bool.or_false]

theorem hasInnerIndicator_of_isAlphanum (h : ∀ x ∈ cs, x.isAlphanum = true) :
    hasInnerIndicator cs = false := by
  induction cs with
  | nil => rfl
  | cons x cs ih =>
    obtain ⟨hx, hcs⟩ := List.forall_mem_cons.1 h
    simp only [hasInnerIndicator, endsWrittenWord_of_isAlphanum hx, ih hcs,
      beq_of_isAlphanum hx ':' rfl, Bool.false_and, Bool.or_false]

theorem startsWithIndicator_of_isAlphanum (h : ∀ x ∈ cs, x.isAlphanum = true) :
    startsWithIndicator cs = false := by
  cases cs with
  | nil => rfl
  | cons x cs =>
    have hx : x.isAlphanum = true := h x List.mem_cons_self
    have others : "#,[]\x7b\x7d&*!|>'\"%@`".toList.all (!·.isAlphanum) = true := by decide
    have indicator : "#,[]\x7b\x7d&*!|>'\"%@`".toList.contains x = false := by
      rw [Bool.eq_false_iff, ne_eq, List.contains_iff_mem]
      exact fun e => absurd (List.all_eq_true.1 others x e) (by rw [hx]; decide)
    have marks (y : Char) (hy : y.isAlphanum = false) (ys : List Char) :
        (y :: ys).isPrefixOf (x :: cs) = false := by
      rw [List.isPrefixOf, Bool.beq_comm, beq_of_isAlphanum hx y hy, Bool.false_and]
    rw [startsWithIndicator, indicator, beq_of_isAlphanum hx '?' rfl, beq_of_isAlphanum hx '-' rfl]
    simp only [Bool.false_or, Bool.false_and]
    rw [show "---".toList = ['-', '-', '-'] from rfl, show "...".toList = ['.', '.', '.'] from rfl,
      marks '-' rfl, marks '.' rfl]
    rfl

theorem hasPair_of_forall_not {p q : Char → Bool} (h : ∀ x ∈ cs, p x = false) : hasPair p q cs = false := by
  induction cs with
  | nil => rfl
  | cons x cs ih =>
    obtain ⟨hx, hcs⟩ := List.forall_mem_cons.1 h
    cases cs with
    | nil => rfl
    | cons y cs => rw [hasPair, hx, Bool.false_and, Bool.false_or, ih hcs]

theorem canBePlain_of_isAlphanum (h : ∀ x ∈ cs, x.isAlphanum = true) : canBePlain cs = true := by
  have space : ∀ x ∈ cs, isSpace x = false := fun x hx => beq_of_isAlphanum (h x hx) ' ' rfl
  have escapes : needsEscapes cs = false := by
    rw [needsEscapes, hasPair_of_forall_not space, Bool.or_false, List.any_eq_false]
    intro x hx
    simp [isPrintable_of_isAlphanum (h x hx)]
  have breaks : cs.any isWrittenBreak = false := by
    rw [List.any_eq_false]
    intro x hx
    simp [isWrittenBreak_of_isAlphanum (h x hx)]
  have tab : cs.contains '\t' = false := by
    rw [Bool.eq_false_iff, ne_eq, List.contains_iff_mem]
    exact fun e => absurd (h _ e) (by decide)
  have first : cs.head?.any isSpace = false := by
    cases e : cs.head? with
    | none => rfl
    | some x => exact space x (List.mem_of_head? e)
  have last : cs.getLast?.any isSpace = false := by
    cases e : cs.getLast? with
    | none => rfl
    | some x => exact space x (List.mem_of_getLast? e)
  rw [canBePlain, startsWithIndicator_of_isAlphanum h, hasInnerIndicator_of_isAlphanum h, escapes, breaks,
    tab, first, last]
  rfl

end Alphanumeric
end FleetPosture.Yaml
