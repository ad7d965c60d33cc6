import FleetPosture.Text.Numeral
import FleetPosture.Yaml.Cursor

/-!
The text of scalars. In plain and quoted scalars blanks around a line break are dropped, a single
break is a space, and of several all but the first remain. Block scalars keep their lines, without
the indentation, or fold them.
-/

namespace FleetPosture.Yaml

/-- Text with the gaps and line breaks after it, which the next character decides about. -/
structure Folded where
  reversed : List Char
  gaps : List Char
  broken : Bool
  first : Option Char
  more : List Char

namespace Folded

def empty : Folded := ⟨[], [], false, none, []⟩

def addGap (f : Folded) (c : Char) : Folded := if f.broken then f else { f with gaps := c :: f.gaps }

def addBreak (f : Folded) (c : Char) : Folded :=
  if f.broken then { f with more := c :: f.more }
  else { f with gaps := [], broken := true, first := some c }

def addEscapedBreak (f : Folded) : Folded := { f with broken := true }

def pending (f : Folded) : List Char :=
  if f.broken then
    match f.first with
    | some '\n' => if f.more.isEmpty then [' '] else f.more
    | some c => f.more ++ [c]
    | none => f.more
  else f.gaps

def flush (f : Folded) : Folded := ⟨f.pending ++ f.reversed, [], false, none, []⟩

def add (f : Folded) (c : Char) : Folded := ⟨c :: (f.pending ++ f.reversed), [], false, none, []⟩

def isPending (f : Folded) : Bool := f.broken || !f.gaps.isEmpty

def text (f : Folded) : String := String.ofList f.reversed.reverse

end Folded

def escape? (c : Char) : Option (Char ⊕ Nat) :=
  match c with
  | '0' => some (.inl '\x00')
  | 'a' => some (.inl '\x07')
  | 'b' => some (.inl '\x08')
  | 't' => some (.inl '\t')
  | '\t' => some (.inl '\t')
  | 'n' => some (.inl '\n')
  | 'v' => some (.inl '\x0b')
  | 'f' => some (.inl '\x0c')
  | 'r' => some (.inl '\r')
  | 'e' => some (.inl '\x1b')
  | ' ' => some (.inl ' ')
  | '"' => some (.inl '"')
  | '/' => some (.inl '/')
  | '\\' => some (.inl '\\')
  | 'N' => some (.inl '\u0085')
  | '_' => some (.inl '\u00a0')
  | 'L' => some (.inl '\u2028')
  | 'P' => some (.inl '\u2029')
  | 'x' => some (.inr 2)
  | 'u' => some (.inr 4)
  | 'U' => some (.inr 8)
  | _ => none

def escapedCode? (digits : List Char) : Option Char := do
  let n ← Text.digits? 16 digits
  if n < 0xd800 ∨ (0xdfff < n ∧ n ≤ 0x10ffff) then some (Char.ofNat n) else none

def quotedFrom (single : Bool) : Nat → Folded → Cursor → Option (String × Cursor)
  | 0, _, _ => none
  | fuel + 1, f, c =>
    if c.atDocumentMarker then none
    else
      match c.peek? with
      | none => none
      | some x =>
        if isGap x then quotedFrom single fuel (f.addGap x) (c.skip 1)
        else if isBreak x then quotedFrom single fuel (f.addBreak c.lineBreak) c.skipBreak
        else if single then
          if x = '\'' then
            if c.at? 1 '\'' then quotedFrom single fuel (f.add '\'') (c.skip 2)
            else some (f.flush.text, c.skip 1)
          else quotedFrom single fuel (f.add x) (c.skip 1)
        else if x = '"' then some (f.flush.text, c.skip 1)
        else if x = '\\' then
          match c.peekAt? 1 with
          | none => none
          | some y =>
            if isBreak y then quotedFrom single fuel f.flush.addEscapedBreak (c.skip 1).skipBreak
            else
              match escape? y with
              | none => none
              | some (.inl z) => quotedFrom single fuel (f.add z) (c.skip 2)
              | some (.inr n) =>
                let digits := (c.rest.drop 2).take n
                if digits.length = n then
                  match escapedCode? digits with
                  | some z => quotedFrom single fuel (f.add z) (c.skip (2 + n))
                  | none => none
                else none
        else quotedFrom single fuel (f.add x) (c.skip 1)

def quoted? (single : Bool) (c : Cursor) : Option (String × Cursor) :=
  quotedFrom single (c.rest.length + 1) .empty (c.skip 1)

def isFlowIndicator (c : Char) : Bool := c == ',' || c == '[' || c == ']' || c == '\x7b' || c == '\x7d'

/-- A plain scalar up to the indicator, comment or line of lesser indentation that ends it, and
whether a line ended after its last character. -/
def plainFrom (flow : Bool) (indent : Int) : Nat → Folded → Cursor → Option (String × Bool × Cursor)
  | 0, _, _ => none
  | fuel + 1, f, c =>
    let stop := some (f.text, f.broken, c)
    match c.peek? with
    | none => stop
    | some x =>
      if isGap x then
        if f.broken ∧ (c.column : Int) < indent ∧ x = '\t' then none
        else plainFrom flow indent fuel (f.addGap x) (c.skip 1)
      else if isBreak x then plainFrom flow indent fuel (f.addBreak c.lineBreak) c.skipBreak
      else if c.atDocumentMarker then stop
      else if f.isPending ∧ (x = '#' ∨ (¬flow ∧ (c.column : Int) < indent)) then stop
      else if x = ':' ∧ endsWord (c.peekAt? 1) then stop
      else if flow ∧ x = ':' ∧ (c.peekAt? 1).any (fun y => isFlowIndicator y || y == '?') then none
      else if flow ∧ isFlowIndicator x then stop
      else plainFrom flow indent fuel (f.add x) (c.skip 1)

def plain? (flow : Bool) (indent : Int) (c : Cursor) : Option (String × Bool × Cursor) :=
  plainFrom flow indent (c.rest.length + 1) .empty c

inductive Chomp
  | strip
  | clip
  | keep
deriving DecidableEq, Repr

def blockHeader? (c : Cursor) : Option (Chomp × Option Nat × Cursor) :=
  let sign (c : Cursor) : Option Chomp :=
    if c.at? 0 '+' then some .keep else if c.at? 0 '-' then some .strip else none
  let digit (c : Cursor) : Option Nat :=
    (c.peek?.filter Char.isDigit).map fun x => x.toNat - 48
  let (chomp, increment, c) := match sign c with
    | some chomp =>
      let c := c.skip 1
      match digit c with
      | some d => (chomp, some d, c.skip 1)
      | none => (chomp, none, c)
    | none =>
      match digit c with
      | some d =>
        let c := c.skip 1
        match sign c with
        | some chomp => (chomp, some d, c.skip 1)
        | none => (.clip, some d, c)
      | none => (.clip, none, c)
  if increment = some 0 then none
  else
    let c := c.skipGaps.skipComment
    match c.peek? with
    | none => some (chomp, increment, c)
    | some x => if isBreak x then some (chomp, increment, c.skipBreak) else none

/-- The empty lines before a line of a block scalar, reversed, and the deepest column that their
spaces reach. No `indent` means that it is not known yet. -/
def blockBreaks (indent : Option Nat) :
    Nat → List Char → Nat → Cursor → Option (List Char × Nat × Cursor)
  | 0, _, _, _ => none
  | fuel + 1, breaks, deepest, c =>
    let within (c : Cursor) : Bool := indent.all (c.column < ·)
    if within c ∧ c.at? 0 ' ' then blockBreaks indent fuel breaks deepest (c.skip 1)
    else
      let deepest := max deepest c.column
      if within c ∧ c.at? 0 '\t' then none
      else if c.atBreak then
        blockBreaks indent fuel (c.lineBreak :: breaks) deepest c.skipBreak
      else some (breaks, deepest, c)

/-- The lines of a block scalar so far: the text reversed, the break after the last line, the empty
lines after it reversed, and whether that line began with a blank. -/
structure BlockLines where
  reversed : List Char
  last : Option Char
  breaks : List Char
  blank : Bool

def BlockLines.joined (b : BlockLines) (literal : Bool) (first : Char) : List Char :=
  if !literal && b.last == some '\n' && !b.blank && !isGap first then
    if b.breaks.isEmpty then ' ' :: b.reversed else b.breaks ++ b.reversed
  else b.breaks ++ (b.last.toList ++ b.reversed)

def blockLines (literal : Bool) (indent : Nat) : Nat → BlockLines → Cursor → Option (BlockLines × Cursor)
  | 0, _, _ => none
  | fuel + 1, b, c =>
    match c.peek? with
    | none => some (b, c)
    | some x =>
      if c.column ≠ indent then some (b, c)
      else
        let (line, c) := c.takeWhile fun y => !isBreak y
        let reversed := line.reverse ++ b.joined literal x
        let (last, c) := if c.atBreak then (some c.lineBreak, c.skipBreak) else (none, c)
        match blockBreaks (some indent) (c.rest.length + 1) [] 0 c with
        | none => none
        | some (breaks, _, c) => blockLines literal indent fuel ⟨reversed, last, breaks, isGap x⟩ c

def block? (literal : Bool) (parent : Int) (c : Cursor) : Option (String × Cursor) := do
  let (chomp, increment, c) ← blockHeader? (c.skip 1)
  let given := increment.map fun n => (if 0 ≤ parent then parent + n else n).toNat
  let (breaks, deepest, c) ← blockBreaks given (c.rest.length + 1) [] 0 c
  let indent := given.getD (max deepest (max (parent + 1).toNat 1))
  let (b, c) ← blockLines literal indent (c.rest.length + 1) ⟨[], none, breaks, false⟩ c
  let text := match chomp with
    | .strip => b.reversed
    | .clip => b.last.toList ++ b.reversed
    | .keep => b.breaks ++ (b.last.toList ++ b.reversed)
  some (String.ofList text.reverse, c)

end FleetPosture.Yaml
