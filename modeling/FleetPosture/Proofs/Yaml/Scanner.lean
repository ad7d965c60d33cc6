import FleetPosture.Proofs.Yaml.ScalarText
import FleetPosture.Yaml.Scanner
import Mathlib.Logic.Relation

/-! The scanner as a machine that goes from one token to the next. Outside flow collections its state
at a token is a spot of the text: what is left of it, the column, whether a key may begin, and the open
blocks. -/

namespace FleetPosture.Yaml

/-- The column of the innermost open block, the columns around it, and the tokens so far, latest
first. -/
structure Blocks where
  indent : Int
  outer : List Int
  reversed : List Token

namespace Blocks

def push (b : Blocks) (t : Token) : Blocks := { b with reversed := t :: b.reversed }

def closeFrom (column : Int) : Int → List Int → List Token → Blocks
  | indent, outer, ts =>
    if indent ≤ column then ⟨indent, outer, ts⟩
    else
      match outer with
      | [] => ⟨-1, [], .blockEnd :: ts⟩
      | i :: rest => closeFrom column i rest (.blockEnd :: ts)

def close (b : Blocks) (column : Int) : Blocks := closeFrom column b.indent b.outer b.reversed

theorem closeFrom_of_le {column indent : Int} (h : indent ≤ column) (outer : List Int) (ts : List Token) :
    closeFrom column indent outer ts = ⟨indent, outer, ts⟩ := by
  unfold closeFrom
  exact if_pos h

theorem closeFrom_nil {column indent : Int} (h : ¬ indent ≤ column) (ts : List Token) :
    closeFrom column indent [] ts = ⟨-1, [], .blockEnd :: ts⟩ := if_neg h

theorem closeFrom_cons {column indent : Int} (h : ¬ indent ≤ column) (i : Int) (outer : List Int)
    (ts : List Token) :
    closeFrom column indent (i :: outer) ts = closeFrom column i outer (.blockEnd :: ts) := if_neg h

theorem close_of_le {b : Blocks} {column : Int} (h : b.indent ≤ column) : b.close column = b :=
  closeFrom_of_le h b.outer b.reversed

theorem close_close {i : Nat} {j : Int} (h : i ≤ j) (b : Blocks) : (b.close j).close i = b.close i := by
  obtain ⟨indent, outer, ts⟩ := b
  change (closeFrom j indent outer ts).close i = closeFrom i indent outer ts
  induction outer generalizing indent ts with
  | nil =>
    by_cases low : indent ≤ j
    · rw [closeFrom_of_le low]
      rfl
    · rw [closeFrom_nil low, closeFrom_nil fun e => low (Int.le_trans e h), close_of_le]
      dsimp only
      omega
  | cons k outer ih =>
    by_cases low : indent ≤ j
    · rw [closeFrom_of_le low]
      rfl
    · rw [closeFrom_cons low, closeFrom_cons fun e => low (Int.le_trans e h)]
      exact ih k _

def append (b : Blocks) (ts : List Token) : Blocks := { b with reversed := ts.reverse ++ b.reversed }

@[simp]
theorem append_indent (b : Blocks) (ts : List Token) : (b.append ts).indent = b.indent := rfl

theorem append_append (b : Blocks) (ts us : List Token) :
    (b.append ts).append us = b.append (ts ++ us) := by
  simp [append]

def enter (b : Blocks) (column : Nat) : Blocks :=
  if b.indent < column then ⟨column, b.indent :: b.outer, .blockMapping :: b.reversed⟩ else b

theorem enter_of_eq {b : Blocks} {column : Nat} (h : b.indent = column) : b.enter column = b :=
  if_neg (by omega)

theorem enter_indent {b : Blocks} {column : Nat} (h : b.indent ≤ column) :
    (b.enter column).indent = column := by
  unfold enter
  by_cases deeper : b.indent < column
  · rw [if_pos deeper]
  · rw [if_neg deeper]
    exact Int.le_antisymm h (Int.not_lt.1 deeper)

theorem close_enter {b : Blocks} {i : Int} {column : Nat} (outside : i < column) (level : b.indent ≤ i)
    (ts : List Token) :
    ((b.enter column).append ts).close i = b.append (.blockMapping :: (ts ++ [.blockEnd])) := by
  have above : ¬ (column : Int) ≤ i := Int.not_le.2 outside
  rw [enter, if_pos (Int.lt_of_le_of_lt level outside)]
  refine (closeFrom_cons above _ _ _).trans ((closeFrom_of_le level _ _).trans ?_)
  simp [append]

def field (b : Blocks) (column : Nat) (name : List Char) : Blocks :=
  (b.enter column).append [.key, .scalar (String.ofList name) .plain, .value]

end Blocks

namespace ScanState

def block (c : Cursor) (allowed : Bool) (key : Option PossibleKey) (b : Blocks) : ScanState :=
  ⟨c, 0, b.indent, b.outer, allowed, [key], b.reversed, b.reversed.length⟩

theorem unrollTo_eq (c : Cursor) (allowed : Bool) (key : Option PossibleKey) (column indent : Int)
    (outer indents : List Int) (ts : List Token) :
    unrollTo column outer ⟨c, 0, indent, indents, allowed, [key], ts, ts.length⟩ =
      block c allowed key (Blocks.closeFrom column indent outer ts) := by
  induction outer generalizing indent ts with
  | nil =>
    by_cases low : indent ≤ column
    · rw [Blocks.closeFrom_of_le low]
      exact if_pos low
    · rw [Blocks.closeFrom_nil low]
      exact if_neg low
  | cons i outer ih =>
    by_cases low : indent ≤ column
    · rw [Blocks.closeFrom_of_le low]
      exact if_pos low
    · rw [Blocks.closeFrom_cons low]
      exact (if_neg low).trans (ih i (.blockEnd :: ts))

theorem unroll_block (c : Cursor) (allowed : Bool) (key : Option PossibleKey) (b : Blocks) (column : Int) :
    (block c allowed key b).unroll column = block c allowed key (b.close column) :=
  unrollTo_eq c allowed key column b.indent b.outer b.outer b.reversed

theorem skipComment_of_startsToken {c : Cursor} (h : startsToken c.rest = true) : c.skipComment = c := by
  refine if_neg fun e => ?_
  cases hr : c.rest with
  | nil => simp [Cursor.at?, hr] at e
  | cons x r =>
    obtain rfl : x = '#' := by simpa [Cursor.at?_zero hr] using e
    rw [hr] at h
    exact absurd h (by simp [startsToken])

theorem atBreak_of_startsToken {c : Cursor} (h : startsToken c.rest = true) : c.atBreak = false := by
  rw [Cursor.atBreak, Cursor.peek?]
  cases hr : c.rest with
  | nil => rfl
  | cons x r =>
    simp only [hr, startsToken, Bool.not_eq_true', Bool.or_eq_false_iff] at h
    exact h.1.1.2

theorem takeWhile_of_startsToken {text : List Char} (h : startsToken text = true) :
    text.takeWhile isSpace = [] := by
  cases text with
  | nil => rfl
  | cons x text =>
    refine List.takeWhile_cons_of_neg fun space => ?_
    obtain rfl : x = ' ' := beq_iff_eq.1 space
    exact absurd h (by simp [startsToken, isGap])

theorem dropWhile_of_startsToken {text : List Char} (h : startsToken text = true) :
    text.dropWhile isSpace = text := by
  rw [← Cursor.drop_takeWhile_length, takeWhile_of_startsToken h]
  rfl

theorem takeWhile_blanks {p : Char → Bool} (space : p ' ' = true)
    (other : ∀ x, isGap x = false → p x = false) {text : List Char}
    (starts : startsToken (text.dropWhile isSpace) = true) :
    text.takeWhile p = text.takeWhile isSpace := by
  induction text with
  | nil => rfl
  | cons x text ih =>
    by_cases blank : isSpace x = true
    · obtain rfl : x = ' ' := beq_iff_eq.1 blank
      rw [List.dropWhile_cons_of_pos blank] at starts
      rw [List.takeWhile_cons_of_pos space, List.takeWhile_cons_of_pos blank, ih starts]
    · rw [List.dropWhile_cons_of_neg blank] at starts
      simp only [startsToken, Bool.not_eq_true', Bool.or_eq_false_iff] at starts
      rw [List.takeWhile_cons_of_neg (Bool.eq_false_iff.1 (other x starts.1.1.1)),
        List.takeWhile_cons_of_neg blank]

theorem skipToToken_spaces {s : ScanState} {text : List Char} (hr : s.cursor.rest = text)
    (starts : startsToken (text.dropWhile isSpace) = true) (fuel : Nat) :
    skipToToken (fuel + 1) s = s.move (s.cursor.skip (text.takeWhile isSpace).length) := by
  have mark : s.cursor.at? 0 '\ufeff' = false := by
    rw [Cursor.at?, hr]
    cases text with
    | nil => rfl
    | cons x text =>
      refine beq_false_of_ne fun e => ?_
      obtain rfl : x = '\ufeff' := Option.some.inj e
      rw [List.dropWhile_cons_of_neg (by decide)] at starts
      exact absurd starts (by simp [startsToken])
  generalize next : s.cursor.skip (text.takeWhile isSpace).length = d
  have landed : startsToken d.rest = true := by
    rw [← next, Cursor.rest_skip, hr, Cursor.drop_takeWhile_length]
    exact starts
  have blanks : (text.takeWhile fun x => x == ' ' || ((s.flow != 0 || !s.keyAllowed) && x == '\t')) =
      text.takeWhile isSpace := by
    refine takeWhile_blanks rfl (fun x h => ?_) starts
    simp only [isGap, Bool.or_eq_false_iff] at h
    rw [h.1, h.2, Bool.and_false, Bool.false_or]
  rw [skipToToken]
  simp only [mark, Bool.and_false, Bool.false_eq_true, if_false, Cursor.skipWhile, Cursor.takeWhile, hr,
    blanks, next, skipComment_of_startsToken landed, atBreak_of_startsToken landed]

theorem skipToToken_of_startsToken {s : ScanState} (h : startsToken s.cursor.rest = true) (fuel : Nat) :
    skipToToken (fuel + 1) s = s := by
  rw [skipToToken_spaces rfl (by rwa [dropWhile_of_startsToken h]), takeWhile_of_startsToken h]
  rfl

theorem skipToToken_newline {s : ScanState} {text : List Char} (hr : s.cursor.rest = '\n' :: text)
    (starts : startsToken (text.dropWhile isSpace) = true) (block : s.flow = 0) (fuel : Nat) :
    skipToToken (fuel + 2) s = (s.move (s.cursor.nextLine text)).allowKey true := by
  have mark : s.cursor.at? 0 '\ufeff' = false := Cursor.at?_zero hr _
  have blanks : (('\n' :: text).takeWhile fun x =>
      x == ' ' || ((s.flow != 0 || !s.keyAllowed) && x == '\t')) = [] :=
    List.takeWhile_cons_of_neg (by simp)
  have comment : (s.cursor.skip 0).skipComment = s.cursor :=
    if_neg (by simp [Cursor.at?, hr])
  have ends : s.cursor.atBreak = true := by rw [Cursor.atBreak, Cursor.peek?_cons hr]; rfl
  have below : ((s.move s.cursor.skipBreak).allowKey true).cursor.rest = text := by
    change s.cursor.skipBreak.rest = text
    rw [Cursor.skipBreak_newline hr]
  rw [skipToToken]
  simp only [mark, Bool.and_false, Bool.false_eq_true, if_false, Cursor.skipWhile, Cursor.takeWhile, hr,
    blanks, List.length_nil, comment, ends, if_true]
  rw [if_pos (show (s.move s.cursor.skipBreak).flow = 0 from block), skipToToken_spaces below starts,
    ← Cursor.skip_skipBreak hr]
  rfl

def IsPast (line : Nat) (key : Option PossibleKey) : Prop :=
  ∀ k ∈ key, k.required = false ∧ k.cursor.line < line

theorem isPast_none (line : Nat) : IsPast line none := fun _ e => absurd e (by simp)

theorem dropStale_block {c : Cursor} {key : Option PossibleKey} (past : IsPast c.line key) (allowed : Bool)
    (b : Blocks) : (block c allowed key b).dropStale = some (block c allowed none b) := by
  cases key with
  | none => rfl
  | some k =>
    obtain ⟨optional, before⟩ := past k rfl
    have stale : isStale c k = true := by rw [isStale, decide_eq_true before, Bool.true_or]
    simp [dropStale, block, stale, optional]

end ScanState

/-- What is left of a text at a token, its column, whether a key may begin there, and the blocks. -/
structure Spot where
  rest : List Char
  column : Nat
  allowed : Bool
  blocks : Blocks

namespace Spot

open ScanState

def state (p : Spot) (line index : Nat) : ScanState :=
  .block ⟨p.rest, line, p.column, index⟩ p.allowed none p.blocks

def line (text : List Char) (b : Blocks) : Spot :=
  ⟨text.dropWhile isSpace, (text.takeWhile isSpace).length, true, b.close (text.takeWhile isSpace).length⟩

variable {c : Cursor} {text : List Char} {key : Option PossibleKey}

theorem settle_newline (hr : c.rest = '\n' :: text) (starts : startsToken (text.dropWhile isSpace) = true)
    (past : IsPast (c.line + 1) key) (allowed : Bool) (b : Blocks) :
    ∃ l i, (block c allowed key b).settle = some ((line text b).state l i) := by
  refine ⟨c.line + 1, c.index + 1 + (text.takeWhile isSpace).length, ?_⟩
  have landed : skipToToken (c.rest.length + 1) (block c allowed key b) =
      block (c.nextLine text) true key b := by
    rw [hr]
    exact skipToToken_newline (s := block c allowed key b) hr starts rfl text.length
  rw [settle, show (block c allowed key b).cursor.rest = c.rest from rfl, landed,
    dropStale_block (c := c.nextLine text) past]
  exact congrArg some (unroll_block _ _ _ _ _)

theorem settle_nextLine (starts : startsToken (text.dropWhile isSpace) = true)
    (past : IsPast (c.line + 1) key) (b : Blocks) :
    ∃ l i, (block (c.nextLine text) true key b).settle = some ((line text b).state l i) := by
  refine ⟨c.line + 1, c.index + 1 + (text.takeWhile isSpace).length, ?_⟩
  rw [settle, skipToToken_of_startsToken starts, dropStale_block (c := c.nextLine text) past]
  exact congrArg some (unroll_block _ _ _ _ _)

theorem settle_space {v : List Char} (hr : c.rest = ' ' :: v) (starts : startsToken v = true)
    (allowed : Bool) {b : Blocks} (deep : b.indent ≤ (c.column + 1 : Nat)) :
    ∃ l i, (block c allowed none b).settle = some ((⟨v, c.column + 1, allowed, b⟩ : Spot).state l i) := by
  refine ⟨c.line, c.index + 1, ?_⟩
  have spaces : ((' ' :: v).takeWhile isSpace).length = 1 := by
    rw [List.takeWhile_cons_of_pos rfl, takeWhile_of_startsToken starts]
    rfl
  have landed : skipToToken (c.rest.length + 1) (block c allowed none b) =
      block ⟨v, c.line, c.column + 1, c.index + 1⟩ allowed none b := by
    rw [skipToToken_spaces (s := block c allowed none b) hr, spaces, Cursor.skip,
      show (block c allowed none b).cursor.rest = ' ' :: v from hr]
    · rfl
    · rw [List.dropWhile_cons_of_pos rfl, dropWhile_of_startsToken starts]
      exact starts
  rw [settle, show (block c allowed none b).cursor.rest = c.rest from rfl, landed,
    dropStale_block (isPast_none _)]
  exact congrArg some ((unroll_block _ _ _ _ _).trans (congrArg _ (Blocks.close_of_le deep)))

end Spot

namespace ScanState

def onward (fuel : Nat) (s : ScanState) : Option ScanState :=
  if s.cursor.rest.isEmpty then s.endStream else s.fetch.bind (run fuel)

theorem run_succ (fuel : Nat) (s : ScanState) : run (fuel + 1) s = s.settle.bind (onward fuel) := rfl

def Moves (s t : ScanState) : Prop :=
  s.fetch.bind settle = some t ∧ t.cursor.rest.length < s.cursor.rest.length

open Relation (ReflTransGen)

theorem onward_of_moves {s t : ScanState} (moves : ReflTransGen Moves s t) (ended : t.cursor.rest = [])
    {fuel : Nat} (enough : s.cursor.rest.length ≤ fuel) : onward fuel s = t.endStream := by
  induction moves using ReflTransGen.head_induction_on generalizing fuel with
  | refl => rw [onward, ended]; rfl
  | @head s u move _ ih =>
    obtain ⟨next, shorter⟩ := move
    obtain ⟨fuel, rfl⟩ := Nat.exists_eq_succ_of_ne_zero (n := fuel) (by omega)
    have unread : s.cursor.rest.isEmpty = false :=
      List.isEmpty_eq_false_iff.2 (List.ne_nil_of_length_pos (by omega))
    calc onward (fuel + 1) s
        = s.fetch.bind fun v => v.settle.bind (onward fuel) := by rw [onward, unread]; rfl
      _ = (s.fetch.bind settle).bind (onward fuel) := (Option.bind_assoc _ _ _).symm
      _ = onward fuel u := by rw [next, Option.bind_some]
      _ = t.endStream := ih (by omega)

end ScanState

namespace Spot

open ScanState
open Relation (ReflTransGen)

/-- From one spot the scanner comes to the other, wherever the lines before put it. -/
def Leads (p q : Spot) : Prop :=
  ∀ l i, ∃ l' i', ReflTransGen Moves (p.state l i) (q.state l' i')

theorem Leads.refl (p : Spot) : p.Leads p := fun l i => ⟨l, i, .refl⟩

theorem Leads.trans {p q r : Spot} (h : p.Leads q) (h' : q.Leads r) : p.Leads r := by
  intro l i
  obtain ⟨l', i', first⟩ := h l i
  obtain ⟨l'', i'', second⟩ := h' l' i'
  exact ⟨l'', i'', first.trans second⟩

theorem leads_of_fetch {p q : Spot} (shorter : q.rest.length < p.rest.length)
    (h : ∀ l i, ∃ t, (p.state l i).fetch = some t ∧ ∃ l' i', t.settle = some (q.state l' i')) :
    p.Leads q := by
  intro l i
  obtain ⟨t, fetched, l', i', settled⟩ := h l i
  exact ⟨l', i', .single ⟨by rw [fetched]; exact settled, shorter⟩⟩

def start (text : List Char) : Spot := ⟨text, 0, true, ⟨-1, [], []⟩⟩

theorem settle_start {text : List Char} (starts : startsToken text = true) :
    (ScanState.start text).settle = some ((start text).state 0 0) := by
  rw [settle, skipToToken_of_startsToken starts,
    show ScanState.start text = block ⟨text, 0, 0, 0⟩ true none ⟨-1, [], []⟩ from rfl,
    dropStale_block (isPast_none 0)]
  have outside : (-1 : Int) ≤ (0 : Nat) := by decide
  exact congrArg some ((unroll_block _ _ _ _ _).trans (congrArg _ (Blocks.close_of_le outside)))

theorem endStream_state (p : Spot) (l i : Nat) :
    ((p.state l i).endStream.map fun s => s.reversed.reverse) =
      some ((p.blocks.close (-1)).reversed.reverse ++ [.streamEnd]) := by
  rw [endStream, state, unroll_block]
  exact congrArg some List.reverse_cons

theorem tokens?_of_leads {text : List Char} (starts : startsToken text = true)
    (allowed : ∀ c ∈ text, isAllowed c = true) {q : Spot} (leads : (start text).Leads q)
    (ended : q.rest = []) :
    tokens? (String.ofList text) = some ((q.blocks.close (-1)).reversed.reverse ++ [.streamEnd]) := by
  obtain ⟨l, i, moves⟩ := leads 0 0
  have ran : run (text.length + 1) (ScanState.start text) = (q.state l i).endStream := by
    rw [run_succ, settle_start starts, Option.bind_some]
    exact onward_of_moves moves ended (Nat.le_refl _)
  have all : text.all isAllowed = true := List.all_eq_true.2 allowed
  unfold tokens?
  rw [String.toList_ofList]
  split
  · exact absurd starts (by simp [startsToken])
  · rw [if_pos all, ran, endStream_state]

end Spot
end FleetPosture.Yaml
