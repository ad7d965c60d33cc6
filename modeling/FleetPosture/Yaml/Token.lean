/-!
The tokens of a YAML text. Indentation shows as the start and end tokens of block collections.
-/

namespace FleetPosture.Yaml

inductive Style
  | plain
  | single
  | double
  | literal
  | folded
deriving DecidableEq, Repr

inductive Token
  | version (major minor : Nat)
  | tagHandle (handle expansion : String)
  | documentStart
  | documentEnd
  | blockSequence
  | blockMapping
  | blockEnd
  | flowSequence
  | flowSequenceEnd
  | flowMapping
  | flowMappingEnd
  | blockEntry
  | flowEntry
  | key
  | value
  | alias (name : String)
  | anchor (name : String)
  | tag (handle suffix : String)
  | scalar (text : String) (style : Style)
  | streamEnd
deriving DecidableEq, Repr

end FleetPosture.Yaml
