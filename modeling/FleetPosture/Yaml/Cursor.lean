/-!
A position in a YAML text, with the line and column that indentation and simple keys are judged by,
and the classes of characters that YAML tells apart.
-/

namespace FleetPosture.Yaml

def isBreak (c : Char) : Bool :=
  c == '\n' || c == '\r' || c == '\u0085' || c == '\u2028' || c == '\u2029'

def isGap (c : Char) : Bool := c == ' ' || c == '\t'

def isNameChar (c : Char) : Bool := c.isAlphanum || c == '_' || c == '-'

def isAllowed (c : Char) : Bool :=
  let n := c.toNat
  n == 0x09 || n == 0x0a || n == 0x0d || (0x20 ≤ n && n ≤ 0x7e) || n == 0x85 ||
    (0xa0 ≤ n && n ≤ 0xd7ff) || (0xe000 ≤ n && n ≤ 0xfffd) || 0x10000 ≤ n

def endsWord : Option Char → Bool
  | none => true
  | some c => isGap c || isBreak c

structure Cursor where
  rest : List Char
  line : Nat
  column : Nat
  index : Nat

namespace Cursor

def start (text : List Char) : Cursor := ⟨text, 0, 0, 0⟩

def peek? (c : Cursor) : Option Char := c.rest.head?

def peekAt? (c : Cursor) (n : Nat) : Option Char := c.rest[n]?

def at? (c : Cursor) (n : Nat) (x : Char) : Bool := c.rest[n]? == some x

def skip (c : Cursor) (n : Nat) : Cursor :=
  ⟨c.rest.drop n, c.line, c.column + n, c.index + n⟩

def skipBreak (c : Cursor) : Cursor :=
  match c.rest with
  | '\r' :: '\n' :: r => ⟨r, c.line + 1, 0, c.index + 2⟩
  | _ :: r => ⟨r, c.line + 1, 0, c.index + 1⟩
  | [] => c

/-- The line break that comes next as it counts in a text: a newline for all but the two Unicode
separators. -/
def lineBreak (c : Cursor) : Char :=
  match c.rest with
  | '\u2028' :: _ => '\u2028'
  | '\u2029' :: _ => '\u2029'
  | _ => '\n'

def takeWhile (c : Cursor) (p : Char → Bool) : List Char × Cursor :=
  let taken := c.rest.takeWhile p
  (taken, c.skip taken.length)

def skipWhile (c : Cursor) (p : Char → Bool) : Cursor := (c.takeWhile p).2

def skipGaps (c : Cursor) : Cursor := c.skipWhile isGap

def skipComment (c : Cursor) : Cursor :=
  if c.at? 0 '#' then c.skipWhile fun x => !isBreak x else c

def atBreak (c : Cursor) : Bool := c.peek?.any isBreak

def atGap (c : Cursor) : Bool := c.peek?.any isGap

/-- Whether the line begins with three times `x` as a word of its own, which bounds a document. -/
def atMarker (c : Cursor) (x : Char) : Bool :=
  c.column == 0 && c.at? 0 x && c.at? 1 x && c.at? 2 x && endsWord (c.peekAt? 3)

def atDocumentMarker (c : Cursor) : Bool := c.atMarker '-' || c.atMarker '.'

end Cursor
end FleetPosture.Yaml
