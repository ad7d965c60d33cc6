import FleetPosture.Text.Pieces
import FleetPosture.Yaml.Node
import FleetPosture.Yaml.Resolve
import FleetPosture.Yaml.Scanner

/-!
Values of known types out of YAML documents. The wanted type decides how a scalar is understood:
any scalar is a text, while only a plain one is a number or a truth value.
-/

namespace FleetPosture.Yaml

mutual

def Node.marked : Node → List (Nat × Node)
  | .sequence _ items => markedInItems items
  | .mapping _ pairs => markedInPairs pairs
  | .anchored id n => (id, n) :: n.marked
  | _ => []

def markedInItems : List Node → List (Nat × Node)
  | [] => []
  | n :: ns => n.marked ++ markedInItems ns

def markedInPairs : List (Node × Node) → List (Nat × Node)
  | [] => []
  | (k, v) :: ps => k.marked ++ (v.marked ++ markedInPairs ps)

end

structure Place where
  anchors : List (Nat × Node)
  node : Node

namespace Place

def content (p : Place) : Node :=
  let direct : Node → Node
    | .anchored _ n => n
    | n => n
  match direct p.node with
  | .alias id => direct ((p.anchors.lookup id).getD (.alias id))
  | n => n

def move (p : Place) (n : Node) : Place := { p with node := n }

def isEmpty (p : Place) : Bool :=
  match p.content with
  | .scalar _ .plain "" => true
  | _ => false

def text? (p : Place) : Option String :=
  match p.content with
  | .scalar _ _ s => some s
  | _ => none

/-- The text of a scalar that may be something other than text: a plain one, or a literal one with
the tag of the wanted type. -/
def typedText? (p : Place) (kind : String) : Option String :=
  match p.content with
  | .scalar _ .plain s => some s
  | .scalar (some tag) .literal s => if tag = "tag:yaml.org,2002:" ++ kind then some s else none
  | _ => none

def bool? (p : Place) : Option Bool := (p.typedText? "bool").bind truth?

def natural? (limit : Nat) (p : Place) : Option Nat := do
  let s ← p.typedText? "int"
  (Yaml.natural? s.toList).filter (· ≤ limit)

def list? {α : Type} (item? : Place → Option α) (p : Place) : Option (List α) :=
  match p.content with
  | .sequence _ items => items.mapM fun n => item? (p.move n)
  | _ => if p.isEmpty then some [] else none

def option? {α : Type} (item? : Place → Option α) (p : Place) : Option (Option α) :=
  match p.content with
  | .scalar none .plain s => if s.isEmpty || isNullWord s then some none else (item? p).map some
  | .scalar (some "tag:yaml.org,2002:null") .plain s => if isNullWord s then some none else none
  | _ => (item? p).map some

def choice? {α : Type} (options : List (String × α)) (p : Place) : Option α :=
  match p.content with
  | .scalar tag style s =>
    match tag.bind fun t => Text.dropPrefix? ['!'] t.toList with
    | some name =>
      if style = .plain ∧ (s.isEmpty ∨ isNullWord s) then options.lookup (String.ofList name)
      else none
    | none => options.lookup s
  | _ => none

def record? (names : List String) (p : Place) : Option (List (Option Place)) :=
  match p.content with
  | .mapping _ pairs => do
    let fields ← pairs.mapM fun (k, v) => do some (← (p.move k).text?, p.move v)
    let known := fields.filter fun f => names.contains f.1
    if (known.map (·.1)).Nodup then some (names.map fun name => known.lookup name) else none
  | _ => if p.isEmpty then some (names.map fun _ => none) else none

def optional? {α : Type} (item? : Place → Option α) : Option Place → Option (Option α)
  | none => some none
  | some p => p.option? item?

def defaulted? {α : Type} (item? : Place → Option α) (default : α) : Option Place → Option α
  | none => some default
  | some p => item? p

def required? {α : Type} (item? : Place → Option α) : Option Place → Option α
  | none => none
  | some p => item? p

end Place

/-- The root of the one document of a text; a text without a document counts as an empty one. -/
def document? (text : String) : Option Place := do
  let root := (← Node.ofTokens? (← tokens? text)).getD .emptyScalar
  some ⟨root.marked, root⟩

end FleetPosture.Yaml
