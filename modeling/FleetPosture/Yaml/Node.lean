import FleetPosture.Yaml.Token

/-!
YAML documents as trees, read from tokens. An alias refers to a node by the number of its anchor;
the numbers count the anchors of a document, and a name means its last anchor before the alias.
-/

namespace FleetPosture.Yaml

inductive Node
  | scalar (tag : Option String) (style : Style) (text : String)
  | sequence (tag : Option String) (items : List Node)
  | mapping (tag : Option String) (pairs : List (Node × Node))
  | alias (anchor : Nat)
  | anchored (anchor : Nat) (node : Node)

namespace Node

instance : Inhabited Node := ⟨.alias 0⟩

def emptyScalar : Node := .scalar none .plain ""

structure Reading where
  tokens : List Token
  handles : List (String × String)
  anchors : List (String × Nat)

abbrev Read := StateT Reading Option

def peek : Read Token := do
  match (← get).tokens with
  | t :: _ => pure t
  | [] => failure

def skip : Read Unit := modify fun r => { r with tokens := r.tokens.drop 1 }

def nextIs (ts : List Token) : Read Bool := do pure (ts.contains (← peek))

def accept (t : Token) : Read Bool := do
  if (← peek) = t then
    skip
    pure true
  else pure false

def expect (t : Token) : Read Unit := do
  if !(← accept t) then failure

def anchor? : Read (Option Nat) := do
  match ← peek with
  | .anchor name =>
    skip
    let id := (← get).anchors.length
    modify fun r => { r with anchors := (name, id) :: r.anchors }
    pure (some id)
  | _ => pure none

def tag? : Read (Option String) := do
  match ← peek with
  | .tag handle suffix =>
    skip
    if handle = "" then pure (some suffix)
    else
      match (← get).handles.lookup handle with
      | some expansion => pure (some (expansion ++ suffix))
      | none => failure
  | _ => pure none

def properties : Read (Option Nat × Option String) := do
  let anchor ← anchor?
  let tag ← tag?
  if anchor.isSome then pure (anchor, tag)
  else pure (← anchor?, tag)

def mark (anchor : Option Nat) (n : Node) : Node :=
  match anchor with
  | some id => .anchored id n
  | none => n

mutual

/-- A node. Block collections need a block context, and a sequence without indentation of its own
needs a place where a mapping allows it. -/
def readNode : Nat → Bool → Bool → Read Node
  | 0, _, _ => failure
  | fuel + 1, block, indentless => do
    match ← peek with
    | .alias name =>
      skip
      match (← get).anchors.lookup name with
      | some id => pure (.alias id)
      | none => failure
    | _ =>
      let (anchor, tag) ← properties
      match ← peek with
      | .scalar text style =>
        skip
        pure (mark anchor (.scalar tag style text))
      | .blockEntry =>
        if indentless then
          pure (mark anchor (.sequence tag (← readIndentless fuel)))
        else readBare anchor tag
      | .flowSequence =>
        skip
        pure (mark anchor (.sequence tag (← readFlowItems fuel true)))
      | .flowMapping =>
        skip
        pure (mark anchor (.mapping tag (← readFlowPairs fuel true)))
      | .blockSequence =>
        if block then
          skip
          pure (mark anchor (.sequence tag (← readBlockItems fuel)))
        else readBare anchor tag
      | .blockMapping =>
        if block then
          skip
          pure (mark anchor (.mapping tag (← readBlockPairs fuel)))
        else readBare anchor tag
      | _ => readBare anchor tag
where
  readBare (anchor : Option Nat) (tag : Option String) : Read Node :=
    if anchor.isSome || tag.isSome then
      pure (mark anchor (.scalar tag .plain ""))
    else failure

def readBlockItems : Nat → Read (List Node)
  | 0 => failure
  | fuel + 1 => do
    if ← accept .blockEntry then
      let item ← if ← nextIs [.blockEntry, .blockEnd] then pure emptyScalar else readNode fuel true false
      pure (item :: (← readBlockItems fuel))
    else
      expect .blockEnd
      pure []

def readIndentless : Nat → Read (List Node)
  | 0 => failure
  | fuel + 1 => do
    if ← accept .blockEntry then
      let item ←
        if ← nextIs [.blockEntry, .key, .value, .blockEnd] then pure emptyScalar
        else readNode fuel true false
      pure (item :: (← readIndentless fuel))
    else pure []

def readBlockPairs : Nat → Read (List (Node × Node))
  | 0 => failure
  | fuel + 1 => do
    if ← accept .key then
      let key ← readBlockPart fuel
      let value ← if ← accept .value then readBlockPart fuel else pure emptyScalar
      pure ((key, value) :: (← readBlockPairs fuel))
    else
      expect .blockEnd
      pure []

def readBlockPart : Nat → Read Node
  | 0 => failure
  | fuel + 1 => do
    if ← nextIs [.key, .value, .blockEnd] then pure emptyScalar else readNode fuel true true

/-- The items of a flow sequence and its end. A key makes an item a mapping of one pair. -/
def readFlowItems : Nat → Bool → Read (List Node)
  | 0, _ => failure
  | fuel + 1, first => do
    if ← accept .flowSequenceEnd then pure []
    else
      if !first then expect .flowEntry
      if ← accept .flowSequenceEnd then pure []
      else
        let item ←
          if ← accept .key then
            let key ←
              if ← nextIs [.value, .flowEntry, .flowSequenceEnd] then do skip; pure emptyScalar
              else readNode fuel false false
            let value ←
              if ← accept .value then
                if ← nextIs [.flowEntry, .flowSequenceEnd] then pure emptyScalar
                else readNode fuel false false
              else pure emptyScalar
            pure (.mapping none [(key, value)])
          else readNode fuel false false
        pure (item :: (← readFlowItems fuel false))

def readFlowPairs : Nat → Bool → Read (List (Node × Node))
  | 0, _ => failure
  | fuel + 1, first => do
    if ← accept .flowMappingEnd then pure []
    else
      if !first then expect .flowEntry
      if ← accept .flowMappingEnd then pure []
      else
        let pair ←
          if ← accept .key then
            let key ←
              if ← nextIs [.value, .flowEntry, .flowMappingEnd] then pure emptyScalar
              else readNode fuel false false
            let value ←
              if ← accept .value then
                if ← nextIs [.flowEntry, .flowMappingEnd] then pure emptyScalar
                else readNode fuel false false
              else pure emptyScalar
            pure (key, value)
          else pure (← readNode fuel false false, emptyScalar)
        pure (pair :: (← readFlowPairs fuel false))

end

/-- The directives before a document: at most one version, 1.1 or 1.2, and each tag handle once. -/
def readDirectives : List Token → Bool → List (String × String) →
    Option (List (String × String) × List Token)
  | .version major minor :: ts, versioned, handles =>
    if versioned ∨ major ≠ 1 ∨ (minor ≠ 1 ∧ minor ≠ 2) then none
    else readDirectives ts true handles
  | .tagHandle handle expansion :: ts, versioned, handles =>
    if (handles.lookup handle).isSome then none
    else readDirectives ts versioned ((handle, expansion) :: handles)
  | ts, _, handles => some (handles, ts)

def standardHandles : List (String × String) := [("!", "!"), ("!!", "tag:yaml.org,2002:")]

def readContent (fuel : Nat) : Read Node := do
  match ← peek with
  | .documentStart => pure emptyScalar
  | .documentEnd => pure emptyScalar
  | .streamEnd => pure emptyScalar
  | .version .. => pure emptyScalar
  | .tagHandle .. => pure emptyScalar
  | _ => readNode fuel true false

def ofTokens? (tokens : List Token) : Option (Option Node) := do
  let fuel := 4 * (tokens.length + 1)
  let (handles, rest) ← readDirectives tokens false []
  match rest with
  | [.streamEnd] => if handles.isEmpty ∧ rest.length = tokens.length then some none else none
  | _ =>
    let explicit := rest.head? == some .documentStart
    if rest.length ≠ tokens.length ∧ ¬explicit then none
    else
      let reading : Reading :=
        ⟨if explicit then rest.drop 1 else rest, handles ++ standardHandles, []⟩
      let (root, after) ← (if explicit then readContent fuel else readNode fuel true false).run reading
      if after.tokens.dropWhile (· = .documentEnd) = [.streamEnd] then some (some root) else none

end Node
end FleetPosture.Yaml
