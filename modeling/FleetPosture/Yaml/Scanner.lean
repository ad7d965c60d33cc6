import FleetPosture.Yaml.ScalarText
import FleetPosture.Yaml.Token

/-!
Cutting a YAML text into tokens. A scalar, an anchor, a tag or a flow collection may turn out to be
a key when a colon follows on the same line; its key token then goes in front of it, and if its
column is a new indentation the start of a block mapping goes in front of that.
-/

namespace FleetPosture.Yaml

/-- A place where a key may begin: the number of tokens before it, whether nothing but a key may
stand there, and where it is. -/
structure PossibleKey where
  tokens : Nat
  required : Bool
  cursor : Cursor

/-- `keys` holds a place for the block context and one for each open flow collection, innermost
first; `indents` are the columns around the current one. -/
structure ScanState where
  cursor : Cursor
  flow : Nat
  indent : Int
  indents : List Int
  keyAllowed : Bool
  keys : List (Option PossibleKey)
  reversed : List Token
  count : Nat

namespace ScanState

def start (text : List Char) : ScanState :=
  ⟨.start text, 0, -1, [], true, [none], [], 0⟩

def push (s : ScanState) (t : Token) : ScanState :=
  { s with reversed := t :: s.reversed, count := s.count + 1 }

def insert (s : ScanState) (position : Nat) (t : Token) : ScanState :=
  let after := s.count - position
  { s with reversed := s.reversed.take after ++ t :: s.reversed.drop after, count := s.count + 1 }

def move (s : ScanState) (c : Cursor) : ScanState := { s with cursor := c }

def allowKey (s : ScanState) (b : Bool) : ScanState := { s with keyAllowed := b }

def unrollTo (column : Int) : List Int → ScanState → ScanState
  | outer, s =>
    if s.indent ≤ column then { s with indents := outer }
    else
      match outer with
      | [] => { s.push .blockEnd with indent := -1, indents := [] }
      | i :: rest => unrollTo column rest { s.push .blockEnd with indent := i }

def unroll (s : ScanState) (column : Int) : ScanState :=
  if s.flow = 0 then unrollTo column s.indents s else s

def roll (s : ScanState) (column : Nat) (position : Option Nat) (t : Token) : ScanState :=
  if s.flow = 0 ∧ s.indent < column then
    let s := { s with indents := s.indent :: s.indents, indent := column }
    match position with
    | some n => s.insert n t
    | none => s.push t
  else s

def isStale (c : Cursor) (k : PossibleKey) : Bool :=
  k.cursor.line < c.line || k.cursor.index + 1024 < c.index

def dropStale (s : ScanState) : Option ScanState :=
  if s.keys.any fun k => k.any fun k => isStale s.cursor k && k.required then none
  else some { s with keys := s.keys.map fun k => k.filter fun k => !isStale s.cursor k }

def removeKey (s : ScanState) : Option ScanState :=
  match s.keys with
  | some k :: rest => if k.required then none else some { s with keys := none :: rest }
  | _ => some s

def saveKey (s : ScanState) : Option ScanState :=
  if s.keyAllowed then do
    let required := s.flow == 0 && s.indent == s.cursor.column
    let place : PossibleKey := ⟨s.count, required, s.cursor⟩
    let s ← s.removeKey
    some { s with keys := some place :: s.keys.drop 1 }
  else some s

/-- Past blanks, comments and line breaks. In a block a new line may begin with a key, and tabs
count as blanks only where no key may begin. A line may begin with a byte order mark. -/
def skipToToken : Nat → ScanState → ScanState
  | 0, s => s
  | fuel + 1, s =>
    let c := s.cursor
    let c := if c.column == 0 && c.at? 0 '\ufeff' then c.skip 1 else c
    let c := c.skipWhile fun x => x == ' ' || ((s.flow != 0 || !s.keyAllowed) && x == '\t')
    let c := c.skipComment
    if c.atBreak then
      let s := s.move c.skipBreak
      skipToToken fuel (if s.flow = 0 then s.allowKey true else s)
    else s.move c

def endStream (s : ScanState) : Option ScanState := do
  let s ← (s.unroll (-1)).removeKey
  some (s.push .streamEnd)

/-- The characters of a tag. Commas and square brackets count only between angle brackets, and an
escape stands for a byte. -/
def isTagChar (verbatim : Bool) (c : Char) : Bool :=
  isNameChar c || ";/?:@&=+$.%!~*'()".toList.contains c || (verbatim && ",[]".toList.contains c)

def unescapeTag : List Char → Option (List UInt8)
  | [] => some []
  | '%' :: a :: b :: r => do
    let n ← Text.digits? 16 [a, b]
    some (UInt8.ofNat n :: (← unescapeTag r))
  | '%' :: _ => none
  | c :: r => do some (String.utf8EncodeChar c ++ (← unescapeTag r))

def tagText? (s : List Char) : Option String := do
  let bytes ← unescapeTag s
  String.fromUTF8? ⟨bytes.toArray⟩

def tagHandle? (c : Cursor) : Option (String × Bool × Cursor) :=
  if c.at? 0 '!' then
    let (name, d) := (c.skip 1).takeWhile isNameChar
    if d.at? 0 '!' then some (String.ofList ('!' :: name ++ ['!']), true, d.skip 1)
    else some (String.ofList ('!' :: name), false, d)
  else none

def tag? (flow : Bool) (c : Cursor) : Option (String × String × Cursor) := do
  let (handle, suffix, d) ←
    if c.at? 1 '<' then
      let (body, d) := (c.skip 2).takeWhile (isTagChar true)
      if body.isEmpty || !d.at? 0 '>' then none else some ("", ← tagText? body, d.skip 1)
    else do
      let (handle, closed, d) ← tagHandle? c
      let (body, d) := d.takeWhile (isTagChar false)
      if closed && handle.length > 1 then
        if body.isEmpty then none else some (handle, ← tagText? body, d)
      else
        let suffix := String.ofList (handle.toList.drop 1) ++ (← tagText? body)
        some (if suffix.isEmpty then ("", "!", d) else ("!", suffix, d))
  if endsWord d.peek? || (flow && d.at? 0 ',') then some (handle, suffix, d) else none

def anchorName? (c : Cursor) : Option (String × Cursor) :=
  let (name, d) := (c.skip 1).takeWhile isNameChar
  if name.isEmpty then none
  else if endsWord d.peek? || "?:,]\x7d%@`".toList.any (d.at? 0) then some (String.ofList name, d)
  else none

def versionNumber? (c : Cursor) : Option (Nat × Cursor) :=
  let (digits, d) := c.takeWhile Char.isDigit
  if digits.length > 9 then none else (Text.digits? 10 digits).map (·, d)

def endDirective? (c : Cursor) : Option Cursor :=
  let c := c.skipGaps.skipComment
  match c.peek? with
  | none => some c
  | some x => if isBreak x then some c.skipBreak else none

def directive? (c : Cursor) : Option (Token × Cursor) := do
  let (name, c) := (c.skip 1).takeWhile isNameChar
  if name.isEmpty || !endsWord c.peek? then none
  else if name = "YAML".toList then
    let (major, c) ← versionNumber? c.skipGaps
    if c.at? 0 '.' then
      let (minor, c) ← versionNumber? (c.skip 1)
      some (.version major minor, ← endDirective? c)
    else none
  else if name = "TAG".toList then
    let (handle, closed, c) ← tagHandle? c.skipGaps
    if (!closed && handle ≠ "!") || !c.atGap then none
    else
      let (body, c) := c.skipGaps.takeWhile (isTagChar true)
      if body.isEmpty || !endsWord c.peek? then none
      else some (.tagHandle handle (← tagText? body), ← endDirective? c)
  else none

def openFlow (s : ScanState) (t : Token) : Option ScanState := do
  let s ← s.saveKey
  let s := { s with keys := none :: s.keys, flow := s.flow + 1, keyAllowed := true }
  some ((s.push t).move (s.cursor.skip 1))

def closeFlow (s : ScanState) (t : Token) : Option ScanState := do
  let s ← s.removeKey
  let s := if s.flow = 0 then s else { s with keys := s.keys.drop 1, flow := s.flow - 1 }
  some (((s.allowKey false).push t).move (s.cursor.skip 1))

def documentMarker (s : ScanState) (t : Token) : Option ScanState := do
  let s ← (s.unroll (-1)).removeKey
  some (((s.allowKey false).push t).move (s.cursor.skip 3))

def blockEntry (s : ScanState) : Option ScanState := do
  if s.flow = 0 ∧ ¬s.keyAllowed then none
  else
    let s ← (s.roll s.cursor.column none .blockSequence).removeKey
    some (((s.allowKey true).push .blockEntry).move (s.cursor.skip 1))

def keyIndicator (s : ScanState) : Option ScanState := do
  if s.flow = 0 ∧ ¬s.keyAllowed then none
  else
    let s ← (s.roll s.cursor.column none .blockMapping).removeKey
    some (((s.allowKey (s.flow == 0)).push .key).move (s.cursor.skip 1))

def valueIndicator (s : ScanState) : Option ScanState :=
  let finish (s : ScanState) : ScanState := (s.push .value).move (s.cursor.skip 1)
  match s.keys with
  | some k :: rest =>
    let s := (s.insert k.tokens .key).roll k.cursor.column (some k.tokens) .blockMapping
    some (finish { s with keys := none :: rest, keyAllowed := false })
  | _ =>
    if s.flow = 0 ∧ ¬s.keyAllowed then none
    else some (finish ((s.roll s.cursor.column none .blockMapping).allowKey (s.flow == 0)))

def keyStart (s : ScanState) (read : Option (Token × Cursor)) : Option ScanState := do
  let s ← s.saveKey
  let (t, c) ← read
  some (((s.allowKey false).push t).move c)

def blockScalar (s : ScanState) (style : Style) : Option ScanState := do
  let s ← s.removeKey
  let (text, c) ← block? (style == .literal) s.indent s.cursor
  some (((s.allowKey true).push (.scalar text style)).move c)

def plainScalar (s : ScanState) : Option ScanState := do
  let s ← s.saveKey
  let (text, broken, c) ← plain? (s.flow != 0) (s.indent + 1) s.cursor
  some (((s.allowKey broken).push (.scalar text .plain)).move c)

def isIndicator (c : Char) : Bool := "-?:,[]\x7b\x7d#&*!|>'\"%@`".toList.contains c

def startsPlain (flow : Bool) (x : Char) (next : Option Char) : Bool :=
  (!isIndicator x && !isGap x) || (x == '-' && !next.any isGap) ||
    (!flow && (x == '?' || x == ':') && !endsWord next)

def settle (s : ScanState) : Option ScanState := do
  let s ← (skipToToken (s.cursor.rest.length + 1) s).dropStale
  some (s.unroll s.cursor.column)

def fetch (s : ScanState) : Option ScanState :=
  let c := s.cursor
  let inFlow := s.flow != 0
  match c.peek? with
  | none => none
  | some x =>
    let next := c.peekAt? 1
    if c.column = 0 ∧ x = '%' then do
      let s ← (s.unroll (-1)).removeKey
      let (t, d) ← directive? c
      some (((s.allowKey false).push t).move d)
    else if c.atMarker '-' then s.documentMarker .documentStart
    else if c.atMarker '.' then s.documentMarker .documentEnd
    else if x = '[' then s.openFlow .flowSequence
    else if x = '\x7b' then s.openFlow .flowMapping
    else if x = ']' then s.closeFlow .flowSequenceEnd
    else if x = '\x7d' then s.closeFlow .flowMappingEnd
    else if x = ',' then do
      let s ← s.removeKey
      some (((s.allowKey true).push .flowEntry).move (c.skip 1))
    else if x = '-' ∧ endsWord next then s.blockEntry
    else if x = '?' ∧ (inFlow ∨ endsWord next) then s.keyIndicator
    else if x = ':' ∧ (inFlow ∨ endsWord next) then s.valueIndicator
    else if x = '*' then s.keyStart ((anchorName? c).map fun (n, d) => (.alias n, d))
    else if x = '&' then s.keyStart ((anchorName? c).map fun (n, d) => (.anchor n, d))
    else if x = '!' then s.keyStart ((tag? inFlow c).map fun (h, t, d) => (.tag h t, d))
    else if x = '|' ∧ ¬inFlow then s.blockScalar .literal
    else if x = '>' ∧ ¬inFlow then s.blockScalar .folded
    else if x = '\'' then s.keyStart ((quoted? true c).map fun (t, d) => (.scalar t .single, d))
    else if x = '"' then s.keyStart ((quoted? false c).map fun (t, d) => (.scalar t .double, d))
    else if startsPlain inFlow x next then s.plainScalar
    else none

def run : Nat → ScanState → Option ScanState
  | 0, _ => none
  | fuel + 1, s => do
    let s ← s.settle
    if s.cursor.rest.isEmpty then s.endStream else run fuel (← s.fetch)

end ScanState

def tokens? (text : String) : Option (List Token) :=
  let chars := match text.toList with
    | '\ufeff' :: r => r
    | r => r
  if chars.all isAllowed then
    (ScanState.run (chars.length + 1) (.start chars)).map fun s => s.reversed.reverse
  else none

end FleetPosture.Yaml
