import FleetPosture.Json.Token

/-!
Reading a JSON text: its tokens are read from left to right against a stack of the arrays and
objects that are still open.
-/

namespace FleetPosture.Json

/-- An array or object that is still open: its members so far in reverse, and in an object the key
of the member to come and whether every key so far is text. -/
inductive Frame
  | array (reversed : List Json)
  | object (reversed : List (String × Json)) (keyed : Bool) (key : Option String)

def closeObject (reversed : List (String × Json)) (keyed : Bool) : Json :=
  if keyed then .object reversed.reverse else .illFormed

def addMember (reversed : List (String × Json)) (keyed : Bool) (key : Option String) (v : Json) :
    List (String × Json) × Bool :=
  match key with
  | some k => ((k, v) :: reversed, keyed)
  | none => (reversed, false)

def stringValue : Option String → Json
  | some s => .string s
  | none => .illFormed

/-- `done` is the value that was just completed, if one was; otherwise a value must come next. -/
def readTokens : Option Json → List Frame → List Token → Option Json
  | some v, [], [] => some v
  | some _, [], _ :: _ => none
  | _, _, [] => none
  | some v, .array items :: fs, .comma :: ts => readTokens none (.array (v :: items) :: fs) ts
  | some v, .array items :: fs, .endArray :: ts =>
    readTokens (some (.array (v :: items).reverse)) fs ts
  | some v, .object ms keyed key :: fs, .comma :: .string k :: .colon :: ts =>
    let (ms, keyed) := addMember ms keyed key v
    readTokens none (.object ms keyed k :: fs) ts
  | some v, .object ms keyed key :: fs, .endObject :: ts =>
    let (ms, keyed) := addMember ms keyed key v
    readTokens (some (closeObject ms keyed)) fs ts
  | some _, _ :: _, _ :: _ => none
  | none, fs, .scalar v :: ts => readTokens (some v) fs ts
  | none, fs, .string s :: ts => readTokens (some (stringValue s)) fs ts
  | none, fs, .beginArray :: .endArray :: ts => readTokens (some (.array [])) fs ts
  | none, fs, .beginArray :: ts => readTokens none (.array [] :: fs) ts
  | none, fs, .beginObject :: .endObject :: ts => readTokens (some (.object [])) fs ts
  | none, fs, .beginObject :: .string k :: .colon :: ts =>
    readTokens none (.object [] true k :: fs) ts
  | none, _, _ :: _ => none

def parse? (s : String) : Option Json := do readTokens none [] (← tokens? s.toList)

end FleetPosture.Json
