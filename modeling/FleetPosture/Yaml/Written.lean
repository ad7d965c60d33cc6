import FleetPosture.Yaml.Resolve
import FleetPosture.Yaml.Token

/-!
Writing texts as YAML scalars: plain where that reads back, between single quotes where the text
would be taken for something else, as a block of lines where it has several, and with escapes where
nothing else can hold it.
-/

namespace FleetPosture.Yaml

def isPrintable (c : Char) : Bool :=
  let n := c.toNat
  n == 0x0a || (0x20 ≤ n && n ≤ 0x7e) || (0xa0 ≤ n && n ≤ 0xd7ff) ||
    (0xe000 ≤ n && n ≤ 0xfffd && n != 0xfeff) || 0x10000 ≤ n

def isWrittenBreak (c : Char) : Bool :=
  c == '\n' || c == '\r' || c == '\u0085' || c == '\u2028' || c == '\u2029'

def endsWrittenWord : List Char → Bool
  | [] => true
  | c :: _ => c == ' ' || c == '\t' || c == '\x00' || isWrittenBreak c

def hasPair (p q : Char → Bool) : List Char → Bool
  | a :: b :: r => (p a && q b) || hasPair p q (b :: r)
  | _ => false

def isSpace (c : Char) : Bool := c == ' '

def hasInnerIndicator : List Char → Bool
  | [] => false
  | c :: r =>
    (c == ':' && endsWrittenWord r) || (endsWrittenWord [c] && r.head? == some '#') ||
      hasInnerIndicator r

def startsWithIndicator (s : List Char) : Bool :=
  match s with
  | [] => false
  | c :: r =>
    "#,[]\x7b\x7d&*!|>'\"%@`".toList.contains c || ((c == '?' || c == '-') && endsWrittenWord r) ||
      "---".toList.isPrefixOf s || "...".toList.isPrefixOf s

/-- What has to be escaped; a tab counts where it is not in a block of lines. -/
def needsEscapes (s : List Char) : Bool :=
  s.any (fun c => !isPrintable c && c != '\t') || hasPair isSpace isWrittenBreak s

def canBePlain (s : List Char) : Bool :=
  !(startsWithIndicator s || hasInnerIndicator s || s.any isWrittenBreak || s.contains '\t' ||
    needsEscapes s || s.head?.any isSpace || s.getLast?.any isSpace)

def canBeSingle (s : List Char) : Bool :=
  !(s.contains '\t' || needsEscapes s || hasPair isWrittenBreak isSpace s)

def canBeLiteral (s : List Char) : Bool := !(needsEscapes s || s.getLast?.any isSpace)

def styleOf (s : String) : Style :=
  let cs := s.toList
  if cs.contains '\n' then if canBeLiteral cs then .literal else .double
  else if !isAmbiguous s && canBePlain cs then .plain
  else if canBeSingle cs then .single
  else .double

def hexDigits (width n : Nat) : List Char :=
  let ds := (Nat.toDigits 16 n).map Char.toUpper
  List.replicate (width - ds.length) '0' ++ ds

def escaped (c : Char) : List Char :=
  match c with
  | '\x00' => ['\\', '0']
  | '\x07' => ['\\', 'a']
  | '\x08' => ['\\', 'b']
  | '\t' => ['\\', 't']
  | '\n' => ['\\', 'n']
  | '\x0b' => ['\\', 'v']
  | '\x0c' => ['\\', 'f']
  | '\r' => ['\\', 'r']
  | '\x1b' => ['\\', 'e']
  | '"' => ['\\', '"']
  | '\\' => ['\\', '\\']
  | '\u0085' => ['\\', 'N']
  | '\u2028' => ['\\', 'L']
  | '\u2029' => ['\\', 'P']
  | _ =>
    if isPrintable c then [c]
    else if c.toNat ≤ 0xff then '\\' :: 'x' :: hexDigits 2 c.toNat
    else if c.toNat ≤ 0xffff then '\\' :: 'u' :: hexDigits 4 c.toNat
    else '\\' :: 'U' :: hexDigits 8 c.toNat

/-- Lines with an indentation in front of those that hold something. `broken` says that a line has
just ended. -/
def indented (indent : Nat) (write : Char → List Char) : Bool → List Char → List Char
  | _, [] => []
  | broken, c :: r =>
    if isWrittenBreak c then c :: indented indent write true r
    else
      (if broken then List.replicate indent ' ' else []) ++ write c ++ indented indent write false r

def endsWithBreak (s : List Char) : Bool := s.getLast?.any isWrittenBreak

def chompMark (s : List Char) : List Char :=
  if !endsWithBreak s then ['-']
  else if s.length = 1 || endsWithBreak s.dropLast then ['+']
  else []

/-- A block of lines that are indented by `indent`, after a header that gives the indentation if the
first line does not show it. -/
def literalBlock (indent : Nat) (s : List Char) : List Char :=
  let shown := if s.head?.any fun c => isSpace c || isWrittenBreak c then ['2'] else []
  '|' :: shown ++ chompMark s ++ '\n' :: indented indent (fun c => [c]) true s ++
    (if endsWithBreak s then [] else ['\n'])

def singleQuoted (indent : Nat) (s : List Char) : List Char :=
  let quote (c : Char) : List Char := if c = '\'' then [c, c] else [c]
  '\'' :: indented indent quote false s ++
    (if endsWithBreak s then List.replicate indent ' ' else []) ++ ['\'']

def writtenLine (indent : Nat) (s : String) : List Char :=
  let cs := s.toList
  match styleOf s with
  | .plain => cs ++ ['\n']
  | .single => singleQuoted indent cs ++ ['\n']
  | .double => '"' :: cs.flatMap escaped ++ ['"', '\n']
  | _ => literalBlock indent cs

end FleetPosture.Yaml
