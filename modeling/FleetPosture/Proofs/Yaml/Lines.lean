import FleetPosture.Proofs.Yaml.Scanner

/-! The tokens that the lines of a record hold: the names of fields, texts, the items of a sequence, and
the brackets of an empty one. Each leads from the spot where it begins to the one behind it. -/

namespace FleetPosture.Yaml

namespace ScanState

theorem startsPlain_of_endsWord {x : Char} {next : Option Char}
    (indicator : "#,[]\x7b\x7d&*!|>'\"%@`".toList.contains x = false) (solid : isGap x = false)
    (inside : ∀ y ∈ ['-', '?', ':'], x = y → endsWord next = false) : startsPlain false x next = true := by
  have indicators : "-?:,[]\x7b\x7d#&*!|>'\"%@`".toList.all (fun y =>
      ['-', '?', ':'].contains y || "#,[]\x7b\x7d&*!|>'\"%@`".toList.contains y) = true := by decide
  by_cases special : isIndicator x = true
  · have either := List.all_eq_true.1 indicators x (List.contains_iff_mem.1 special)
    rw [indicator, Bool.or_false] at either
    have listed : x ∈ ['-', '?', ':'] := List.contains_iff_mem.1 either
    have goes_on : endsWord next = false := inside x listed rfl
    have no_gap : next.any isGap = false := by
      cases next with
      | none => rfl
      | some c => exact (Bool.or_eq_false_iff.1 goes_on).1
    simp only [List.mem_cons, List.not_mem_nil, or_false] at listed
    rw [startsPlain, goes_on, no_gap]
    rcases listed with rfl | rfl | rfl <;> decide
  · rw [startsPlain, Bool.eq_false_iff.2 special, solid]
    rfl

theorem fetch_plain {s : ScanState} {cs r : List Char} (hr : s.cursor.rest = cs ++ r) (ne : cs ≠ [])
    (start : startsWithIndicator cs = false) (inner : hasInnerIndicator cs = false)
    (solid : ∀ x ∈ cs.head?, isGap x = false) (unmarked : s.cursor.atDocumentMarker = false)
    (flow : s.flow = 0) : s.fetch = s.plainScalar := by
  obtain ⟨x, cs, rfl⟩ := List.exists_cons_of_ne_nil ne
  have solid : isGap x = false := solid x rfl
  have next : s.cursor.peek? = some x := Cursor.peek?_cons hr
  have after : s.cursor.peekAt? 1 = (cs ++ r).head? := Cursor.peekAt?_one hr
  simp only [Cursor.atDocumentMarker, Bool.or_eq_false_iff] at unmarked
  obtain ⟨colon, -, -⟩ := hasInnerIndicator_cons inner
  simp only [startsWithIndicator, Bool.or_eq_false_iff] at start
  obtain ⟨⟨⟨indicator, word⟩, -⟩, -⟩ := start
  have other : ∀ y ∈ "#,[]\x7b\x7d&*!|>'\"%@`".toList, x ≠ y := by
    rintro y hy rfl
    rw [List.contains_iff_mem.2 hy] at indicator
    exact Bool.noConfusion indicator
  have inside : ∀ y ∈ ['-', '?', ':'], x = y → endsWord (cs ++ r).head? = false := by
    rintro y hy rfl
    refine endsWord_of_endsWrittenWord ?_ r
    simp only [List.mem_cons, List.not_mem_nil, or_false] at hy
    rcases hy with rfl | rfl | rfl
    · simpa using word
    · simpa using word
    · exact colon rfl
  have single (y : Char) (hy : y ∈ ['-', '?', ':']) : ¬ (x = y ∧ endsWord (cs ++ r).head? = true) :=
    fun e => Bool.false_ne_true ((inside y hy e.1).symm.trans e.2)
  have paired (y : Char) (hy : y ∈ ['-', '?', ':']) :
      ¬ (x = y ∧ ((0 != 0) = true ∨ endsWord (cs ++ r).head? = true)) :=
    fun e => single y hy ⟨e.1, e.2.resolve_left (by decide)⟩
  have starts : startsPlain (0 != 0) x (cs ++ r).head? = true :=
    startsPlain_of_endsWord indicator solid inside
  rw [fetch, next]
  dsimp only
  rw [if_neg fun e => other '%' (by decide) e.2, unmarked.1, unmarked.2, if_neg Bool.false_ne_true,
    if_neg Bool.false_ne_true, if_neg (other '[' (by decide)), if_neg (other '\x7b' (by decide)),
    if_neg (other ']' (by decide)), if_neg (other '\x7d' (by decide)), if_neg (other ',' (by decide)),
    after, flow, if_neg (single '-' (by decide)), if_neg (paired '?' (by decide)),
    if_neg (paired ':' (by decide)), if_neg (other '*' (by decide)), if_neg (other '&' (by decide)),
    if_neg (other '!' (by decide)), if_neg fun e => other '|' (by decide) e.1,
    if_neg fun e => other '>' (by decide) e.1, if_neg (other '\'' (by decide)),
    if_neg (other '"' (by decide)), if_pos starts]

def keyPlace (c : Cursor) (allowed : Bool) (b : Blocks) : Option PossibleKey :=
  if allowed then some ⟨b.reversed.length, b.indent == c.column, c⟩ else none

theorem saveKey_block (c : Cursor) (allowed : Bool) (b : Blocks) :
    (block c allowed none b).saveKey = some (block c allowed (keyPlace c allowed b) b) := by
  cases allowed <;> rfl

theorem plainScalar_block (c : Cursor) (allowed : Bool) (b : Blocks) :
    (block c allowed none b).plainScalar = (plain? false (b.indent + 1) c).map fun (text, broken, d) =>
      block d broken (keyPlace c allowed b) (b.push (.scalar text .plain)) := by
  rw [plainScalar, saveKey_block]
  change (plain? false (b.indent + 1) c).bind _ = _
  cases plain? false (b.indent + 1) c <;> rfl

end ScanState
structure IsName (name : List Char) : Prop where
  ne_nil : name ≠ []
  word : ∀ x ∈ name, x.isAlphanum = true
  short : name.length ≤ 1024

instance (name : List Char) : Decidable (IsName name) :=
  decidable_of_iff (name ≠ [] ∧ name.all Char.isAlphanum = true ∧ name.length ≤ 1024)
    ⟨fun ⟨ne, word, short⟩ => ⟨ne, List.all_eq_true.1 word, short⟩,
      fun h => ⟨h.ne_nil, List.all_eq_true.2 h.word, h.short⟩⟩

theorem startsToken_of_isAlphanum {word : List Char} (ne : word ≠ []) (h : ∀ x ∈ word, x.isAlphanum = true)
    (text : List Char) : startsToken (word ++ text) = true := by
  obtain ⟨x, rest, rfl⟩ := List.exists_cons_of_ne_nil ne
  have hx : x.isAlphanum = true := h x List.mem_cons_self
  simp only [List.cons_append, startsToken, isGap_of_isAlphanum hx,
    isBreak_of_isInline (isInline_of_isAlphanum hx), beq_of_isAlphanum hx '#' rfl,
    beq_of_isAlphanum hx '\ufeff' rfl, Bool.or_false, Bool.not_false]

theorem startsToken_of_canBePlain {cs : List Char} (ne : cs ≠ []) (ok : canBePlain cs = true)
    (oneLine : ∀ x ∈ cs, isInline x = true) (text : List Char) : startsToken (cs ++ text) = true := by
  obtain ⟨x, cs, rfl⟩ := List.exists_cons_of_ne_nil ne
  have hx : isInline x = true := oneLine x List.mem_cons_self
  simp only [canBePlain, startsWithIndicator, List.head?_cons, Option.any_some, Bool.not_eq_true',
    Bool.or_eq_false_iff] at ok
  obtain ⟨⟨⟨⟨⟨⟨⟨⟨⟨indicator, -⟩, -⟩, -⟩, -⟩, -⟩, -⟩, escapes⟩, space⟩, -⟩ := ok
  have printable : isPrintable x = true := isPrintable_of_needsEscapes escapes oneLine List.mem_cons_self
  have number : (x == '#') = false := by
    refine beq_false_of_ne ?_
    rintro rfl
    exact absurd indicator (by decide)
  have mark : (x == '\ufeff') = false := by
    refine beq_false_of_ne ?_
    rintro rfl
    exact absurd printable (by decide)
  rw [List.cons_append, startsToken, isGap_of_isInline hx, space, isBreak_of_isInline hx, number, mark]
  rfl

theorem startsToken_writtenLine {s : String} (inline : Inline s) (indent : Nat) (text : List Char) :
    startsToken (writtenLine indent s ++ text) = true := by
  obtain ⟨content, written, shape⟩ := writtenLine_shape inline indent
  rw [written, List.append_assoc]
  generalize styleOf s = style at shape
  cases shape with
  | plain ne ok => exact startsToken_of_canBePlain ne ok inline _
  | quoted single _ => cases single <;> simp [quotedText, quoteMark, startsToken, isGap, isBreak]

/-- The end of the text, or a line with a token at `column` or before. -/
structure Outdented (column : Int) (text : List Char) : Prop where
  starts : startsToken (text.dropWhile isSpace) = true
  shallow : (text.takeWhile isSpace).length ≤ column

namespace ScanState

theorem fetch_plain_text {c : Cursor} {cs text : List Char} {b : Blocks} (ne : cs ≠ [])
    (ok : canBePlain cs = true) (oneLine : ∀ x ∈ cs, isInline x = true) (hr : c.rest = cs ++ '\n' :: text)
    (after : Outdented b.indent text) (deep : b.indent < c.column) (allowed : Bool) :
    (block c allowed none b).fetch = some (block ((c.skip cs.length).nextLine text) true
      (keyPlace c allowed b) (b.push (.scalar (String.ofList cs) .plain))) := by
  have inside : c.column ≠ 0 := by
    have := after.shallow
    omega
  have parts := ok
  simp only [canBePlain, Bool.not_eq_true', Bool.or_eq_false_iff] at parts
  obtain ⟨⟨⟨⟨⟨⟨start, inner⟩, -⟩, -⟩, -⟩, first⟩, -⟩ := parts
  have solid : ∀ x ∈ cs.head?, isGap x = false := by
    intro x hx
    rw [isGap_of_isInline (oneLine x (List.mem_of_head? hx))]
    exact Bool.eq_false_iff.2 fun space => Bool.false_ne_true (by rw [← first, hx, Option.any_some, space])
  rw [fetch_plain (s := block c allowed none b) hr ne start inner solid
      (Cursor.atDocumentMarker_of_column inside) rfl,
    plainScalar_block,
    plain?_text ok oneLine hr after.starts (Int.lt_add_one_of_le after.shallow) deep inside]
  rfl

theorem fetch_name {c : Cursor} {name text : List Char} (hn : IsName name)
    (hr : c.rest = name ++ ':' :: text) (ends : endsWord text.head? = true) (b : Blocks) :
    (block c true none b).fetch = some (block (c.skip name.length) false
      (keyPlace c true b) (b.push (.scalar (String.ofList name) .plain))) := by
  have unmarked : c.atDocumentMarker = false := by
    obtain ⟨x, rest, rfl⟩ := List.exists_cons_of_ne_nil hn.ne_nil
    have hx : x.isAlphanum = true := hn.word x List.mem_cons_self
    have other (y : Char) (hy : y.isAlphanum = false) : x ≠ y :=
      fun e => Bool.false_ne_true (hy.symm.trans (e ▸ hx))
    rw [Cursor.atDocumentMarker, Cursor.atMarker_of_ne hr (other '-' rfl),
      Cursor.atMarker_of_ne hr (other '.' rfl)]
    rfl
  have solid : ∀ x ∈ name.head?, isGap x = false :=
    fun x hx => isGap_of_isAlphanum (hn.word x (List.mem_of_head? hx))
  rw [fetch_plain (s := block c true none b) hr hn.ne_nil (startsWithIndicator_of_isAlphanum hn.word)
      (hasInnerIndicator_of_isAlphanum hn.word) solid unmarked rfl,
    plainScalar_block, plain?_name hn.ne_nil hn.word hr ends unmarked]
  rfl

theorem fetch_quote {s : ScanState} {single : Bool} {r : List Char}
    (hr : s.cursor.rest = quoteMark single :: r) :
    s.fetch =
      s.keyStart ((quoted? single s.cursor).map fun (t, d) => (.scalar t (quoteStyle single), d)) := by
  have next : s.cursor.peek? = some (quoteMark single) := Cursor.peek?_cons hr
  have dash : s.cursor.atMarker '-' = false := Cursor.atMarker_of_ne hr (by cases single <;> decide)
  have dot : s.cursor.atMarker '.' = false := Cursor.atMarker_of_ne hr (by cases single <;> decide)
  rw [fetch, next]
  cases single with
  | true => simp [quoteMark, quoteStyle, dash, dot]
  | false => simp [quoteMark, quoteStyle, dash, dot]

theorem fetch_quoted {single : Bool} {c : Cursor} {cs text : List Char}
    (oneLine : ∀ x ∈ cs, isInline x = true) (hr : c.rest = quotedText single cs ++ '\n' :: text) (b : Blocks) :
    (block c false none b).fetch = some (block (c.skip (quotedText single cs).length) false none
      (b.push (.scalar (String.ofList cs) (quoteStyle single)))) := by
  rw [@fetch_quote (block c false none b) single _ hr,
    show (block c false none b).cursor = c from rfl, quoted?_quotedText oneLine hr (by simp)]
  rfl

theorem fetch_colon {s : ScanState} {r : List Char} (hr : s.cursor.rest = ':' :: r)
    (ends : endsWord r.head? = true) : s.fetch = s.valueIndicator := by
  have next : s.cursor.peek? = some ':' := Cursor.peek?_cons hr
  have after : s.cursor.peekAt? 1 = r.head? := Cursor.peekAt?_one hr
  have dash : s.cursor.atMarker '-' = false := Cursor.atMarker_of_ne hr (by decide)
  have dot : s.cursor.atMarker '.' = false := Cursor.atMarker_of_ne hr (by decide)
  rw [fetch, next]
  simp [after, ends, dash, dot]

theorem valueIndicator_block (c d : Cursor) (b : Blocks) (name : List Char) :
    (block d false (keyPlace c true b) (b.push (.scalar (String.ofList name) .plain))).valueIndicator =
      some (block (d.skip 1) false none (b.field c.column name)) := by
  -- The key goes in front of the scalar, and the start of a mapping in front of the key.
  have two : b.reversed.length + 1 + 1 - b.reversed.length = 2 := by omega
  by_cases deeper : b.indent < c.column
  · simp [valueIndicator, block, keyPlace, Blocks.push, insert, roll, deeper, Blocks.field, Blocks.enter,
      Blocks.append, push, move, two]
  · simp [valueIndicator, block, keyPlace, Blocks.push, insert, roll, deeper, Blocks.field, Blocks.enter,
      Blocks.append, push, move]

theorem settle_colon {c : Cursor} {b : Blocks} {name r : List Char} (hn : IsName name)
    (hr : c.rest = name ++ ':' :: r) (level : b.indent ≤ c.column) :
    (block (c.skip name.length) false (keyPlace c true b)
        (b.push (.scalar (String.ofList name) .plain))).settle =
      some (block (c.skip name.length) false (keyPlace c true b)
        (b.push (.scalar (String.ofList name) .plain))) := by
  have short := hn.short
  have colon : startsToken (c.skip name.length).rest = true := by
    rw [Cursor.rest_skip_length hr]
    simp [startsToken, isGap, isBreak]
  have fresh : isStale (c.skip name.length) ⟨b.reversed.length, b.indent == c.column, c⟩ = false := by
    simp [isStale, short]
  have kept (t : Token) : (block (c.skip name.length) false (keyPlace c true b) (b.push t)).dropStale =
      some (block (c.skip name.length) false (keyPlace c true b) (b.push t)) := by
    simp [dropStale, block, keyPlace, fresh]
  rw [settle, skipToToken_of_startsToken colon, kept]
  refine congrArg some ((unroll_block _ _ _ _ _).trans (congrArg _ (Blocks.close_of_le ?_)))
  change b.indent ≤ ((c.skip name.length).column : Int)
  rw [Cursor.column_skip]
  omega

end ScanState

namespace Spot

open ScanState
open Relation (ReflTransGen)

variable {text : List Char} {column : Nat} {b : Blocks}

theorem length_line_lt (text : List Char) (b : Blocks) {v : List Char} (h : text.length < v.length) :
    (line text b).rest.length < v.length :=
  Nat.lt_of_le_of_lt (List.dropWhile_suffix isSpace).length_le h

theorem leads_entry {v : List Char} (starts : startsToken v = true) (level : b.indent = column) :
    (⟨'-' :: ' ' :: v, column, true, b⟩ : Spot).Leads ⟨v, column + 2, true, b.push .blockEntry⟩ := by
  refine leads_of_fetch (Nat.lt_succ_of_lt (Nat.lt_succ_self v.length)) fun l i => ?_
  refine ⟨block ⟨' ' :: v, l, column + 1, i + 1⟩ true none (b.push .blockEntry), ?_,
    settle_space rfl starts true ?_⟩
  · simp [fetch, state, block, Cursor.peek?, Cursor.peekAt?, Cursor.atMarker, Cursor.at?, blockEntry, roll,
      level, removeKey, allowKey, push, move, Cursor.skip, endsWord, isGap, isBreak, Blocks.push]
  · simp [Blocks.push, level]
    omega

theorem leads_plain {cs : List Char} (ne : cs ≠ []) (ok : canBePlain cs = true)
    (oneLine : ∀ x ∈ cs, isInline x = true) (after : Outdented b.indent text) (deep : b.indent < column)
    (allowed : Bool) :
    (⟨cs ++ '\n' :: text, column, allowed, b⟩ : Spot).Leads
      (line text (b.push (.scalar (String.ofList cs) .plain))) := by
  refine leads_of_fetch (length_line_lt text _ (by simp; omega)) fun l i => ?_
  refine ⟨_, fetch_plain_text ne ok oneLine rfl after deep allowed, settle_nextLine after.starts ?_ _⟩
  intro k hk
  cases allowed with
  | false => exact absurd hk (by simp [keyPlace])
  | true =>
    obtain rfl := Option.some.inj hk
    exact ⟨beq_false_of_ne (Int.ne_of_lt deep), Nat.lt_succ_self _⟩

theorem leads_quoted (single : Bool) {cs : List Char} (oneLine : ∀ x ∈ cs, isInline x = true)
    (starts : startsToken (text.dropWhile isSpace) = true) :
    (⟨quotedText single cs ++ '\n' :: text, column, false, b⟩ : Spot).Leads
      (line text (b.push (.scalar (String.ofList cs) (quoteStyle single)))) := by
  refine leads_of_fetch (length_line_lt text _ (by simp; omega)) fun l i => ?_
  let c : Cursor := ⟨quotedText single cs ++ '\n' :: text, l, column, i⟩
  have left : (c.skip (quotedText single cs).length).rest = '\n' :: text := List.drop_left
  exact ⟨_, fetch_quoted (c := c) oneLine rfl b,
    settle_newline left starts (isPast_none _) false _⟩

theorem leads_text {s : String} (inline : Inline s) (indent : Nat) (after : Outdented b.indent text)
    (deep : b.indent < column) :
    (⟨writtenLine indent s ++ text, column, false, b⟩ : Spot).Leads
      (line text (b.push (.scalar s (styleOf s)))) := by
  obtain ⟨content, written, shape⟩ := writtenLine_shape inline indent
  have same : String.ofList s.toList = s := String.ofList_toList
  rw [written, List.append_assoc, List.singleton_append]
  generalize styleOf s = style at shape ⊢
  cases shape with
  | plain ne ok => simpa only [same] using leads_plain ne ok inline after deep false
  | quoted single _ => simpa only [same] using leads_quoted single inline after.starts

theorem leads_of_name {name r : List Char} {q : Spot} (hn : IsName name) (level : b.indent ≤ column)
    (ends : endsWord r.head? = true) (shorter : q.rest.length ≤ r.length)
    (settled : ∀ l i, ∃ l' i', (block ⟨r, l, column + name.length + 1, i⟩ false none
      (b.field column name)).settle = some (q.state l' i')) :
    (⟨name ++ ':' :: r, column, true, b⟩ : Spot).Leads q := by
  intro l i
  obtain ⟨l', i', settled⟩ := settled l (i + name.length + 1)
  let c : Cursor := ⟨name ++ ':' :: r, l, column, i⟩
  let colon : ScanState :=
    block (c.skip name.length) false (keyPlace c true b) (b.push (.scalar (String.ofList name) .plain))
  have left : colon.cursor.rest = ':' :: r := List.drop_left
  have past : (c.skip name.length).skip 1 = ⟨r, l, column + name.length + 1, i + name.length + 1⟩ := by
    rw [Cursor.skip, show (c.skip name.length).rest = ':' :: r from left]
    rfl
  have first : Moves ((⟨name ++ ':' :: r, column, true, b⟩ : Spot).state l i) colon := by
    refine ⟨?_, ?_⟩
    · rw [show (⟨name ++ ':' :: r, column, true, b⟩ : Spot).state l i = block c true none b from rfl,
        fetch_name hn rfl ends b]
      exact settle_colon hn rfl level
    · rw [left]
      have := List.length_pos_iff.2 hn.ne_nil
      change (':' :: r).length < (name ++ ':' :: r).length
      rw [List.length_append]
      omega
  have second : Moves colon (q.state l' i') := by
    refine ⟨?_, ?_⟩
    · rw [fetch_colon left ends, valueIndicator_block, past]
      exact settled
    · rw [left]
      exact Nat.lt_succ_of_le shorter
  exact ⟨l', i', .tail (.single first) second⟩

theorem leads_field {name v : List Char} (hn : IsName name) (level : b.indent ≤ column)
    (starts : startsToken v = true) :
    (⟨name ++ ':' :: ' ' :: v, column, true, b⟩ : Spot).Leads
      ⟨v, column + name.length + 2, false, b.field column name⟩ := by
  refine leads_of_name hn level rfl (Nat.le_succ _) fun l i => settle_space rfl starts false ?_
  rw [Blocks.field, Blocks.append_indent, Blocks.enter_indent level]
  dsimp only
  omega

theorem leads_heading {name : List Char} (hn : IsName name) (level : b.indent ≤ column)
    (starts : startsToken (text.dropWhile isSpace) = true) :
    (⟨name ++ ':' :: '\n' :: text, column, true, b⟩ : Spot).Leads (line text (b.field column name)) := by
  exact leads_of_name hn level rfl (Nat.le_of_lt (length_line_lt text _ (Nat.lt_succ_self _))) fun l i =>
    settle_newline rfl starts (isPast_none _) false _

theorem leads_brackets (starts : startsToken (text.dropWhile isSpace) = true) :
    (⟨'[' :: ']' :: '\n' :: text, column, false, b⟩ : Spot).Leads
      (line text ((b.push .flowSequence).push .flowSequenceEnd)) := by
  intro l i
  let opened : ScanState :=
    ⟨⟨']' :: '\n' :: text, l, column + 1, i + 1⟩, 1, b.indent, b.outer, true, [none, none],
      .flowSequence :: b.reversed, b.reversed.length + 1⟩
  let both : Blocks := (b.push .flowSequence).push .flowSequenceEnd
  have opening :
      ((⟨'[' :: ']' :: '\n' :: text, column, false, b⟩ : Spot).state l i).fetch = some opened := by
    simp [fetch, state, block, Cursor.peek?, Cursor.peekAt?, Cursor.atMarker, Cursor.at?, openFlow, saveKey,
      push, move, Cursor.skip, opened]
  have waiting : opened.settle = some opened := by
    rw [settle, skipToToken_of_startsToken (by simp [opened, startsToken, isGap, isBreak])]
    rfl
  have closing : opened.fetch = some (block ⟨'\n' :: text, l, column + 2, i + 2⟩ false none both) := by
    simp [fetch, opened, block, Cursor.peek?, Cursor.peekAt?, Cursor.atMarker, Cursor.at?, closeFlow,
      removeKey, allowKey, push, move, Cursor.skip, both, Blocks.push]
  obtain ⟨l', i', settled⟩ :=
    settle_newline (c := ⟨'\n' :: text, l, column + 2, i + 2⟩) rfl starts (isPast_none _) false both
  have inside : text.length < opened.cursor.rest.length := by
    simp only [opened, List.length_cons]
    omega
  have first : Moves ((⟨'[' :: ']' :: '\n' :: text, column, false, b⟩ : Spot).state l i) opened := by
    refine ⟨?_, ?_⟩
    · rw [opening]
      exact waiting
    · simp [opened, state, block]
  have second : Moves opened ((line text both).state l' i') := by
    refine ⟨?_, ?_⟩
    · rw [closing, Option.bind_some, settled]
    · exact length_line_lt text both inside
  exact ⟨l', i', .tail (.single first) second⟩

theorem line_indented {v : List Char} (starts : startsToken v = true) (level : b.indent ≤ column) :
    line (List.replicate column ' ' ++ v) b = ⟨v, column, true, b⟩ := by
  have spaces : (List.replicate column ' ' ++ v).takeWhile isSpace = List.replicate column ' ' := by
    rw [List.takeWhile_append_of_pos (by simp [isSpace]), takeWhile_of_startsToken starts, List.append_nil]
  have after : (List.replicate column ' ' ++ v).dropWhile isSpace = v := by
    rw [List.dropWhile_append_of_pos (by simp [isSpace]), dropWhile_of_startsToken starts]
  rw [line, spaces, after, List.length_replicate, Blocks.close_of_le level]

theorem line_close {j : Int} (h : (text.takeWhile isSpace).length ≤ j) (b : Blocks) :
    line text (b.close j) = line text b := by
  rw [line, Blocks.close_close h, line]

end Spot
end FleetPosture.Yaml
