/-!
JSON values. Numbers that are whole and fit 64 bits are integers; any other numeral is kept as it
was written. A string that holds half of a surrogate pair denotes no text, and neither does an
object with such a key: both are `illFormed`, which only a reader that skips the value accepts.
-/

namespace FleetPosture

inductive Json
  | null
  | bool (b : Bool)
  | integer (n : Int)
  | real (numeral : String)
  | string (s : String)
  | array (items : List Json)
  | object (fields : List (String × Json))
  | illFormed

namespace Json

instance : Inhabited Json := ⟨.null⟩

def text? : Json → Option String
  | .string s => some s
  | _ => none

def bool? : Json → Option Bool
  | .bool b => some b
  | _ => none

def natural? (limit : Nat) : Json → Option Nat
  | .integer n => if 0 ≤ n ∧ n ≤ limit then some n.toNat else none
  | _ => none

def list? {α : Type} (item? : Json → Option α) : Json → Option (List α)
  | .array items => items.mapM item?
  | _ => none

def member? (key : String) : Json → Option Json
  | .object fields => fields.reverse.lookup key
  | _ => none

/-- One of a list of named options: its name, or an object that maps its name to null. -/
def choice? {α : Type} (options : List (String × α)) : Json → Option α
  | .string s => options.lookup s
  | .object [(s, .null)] => options.lookup s
  | _ => none

/-- The values of a record's fields, in the order of `names`: by name from an object, in which
unknown names are skipped and no known one is repeated, or by position from an array. -/
def record? (names : List String) : Json → Option (List (Option Json))
  | .object fields =>
    let known := fields.filter fun f => names.contains f.1
    if (known.map (·.1)).Nodup then some (names.map fun name => known.lookup name) else none
  | .array items =>
    if items.length ≤ names.length then
      some (items.map some ++ List.replicate (names.length - items.length) none)
    else none
  | _ => none

def optional? {α : Type} (item? : Json → Option α) : Option Json → Option (Option α)
  | none => some none
  | some .null => some none
  | some v => (item? v).map some

def defaulted? {α : Type} (item? : Json → Option α) (default : α) : Option Json → Option α
  | none => some default
  | some v => item? v

def required? {α : Type} (item? : Json → Option α) : Option Json → Option α
  | none => none
  | some v => item? v

end Json
end FleetPosture
