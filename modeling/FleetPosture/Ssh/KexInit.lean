import FleetPosture.Text.Pieces
import FleetPosture.Wire

/-!
The message in which each side of an SSH connection lists the algorithms that it supports. The answer
to a server's names one key exchange and some host keys, and repeats all other lists of the server,
so that agreement on these cannot fail.
-/

namespace FleetPosture.Ssh

open Text (Bytes)

def kexInitMessage : UInt8 := 20

structure KexInit where
  keyExchanges : List String
  hostKeys : List String
  /-- The lists for encryption, authentication, compression and language in both directions. -/
  others : List (List String)
deriving DecidableEq, Repr

namespace KexInit

def namesOf (text : String) : List String :=
  ((Text.pieces (· == ',') text.toList).filter fun name => !name.isEmpty).map String.ofList

def nameList? (s : Bytes) : Option (List String × Bytes) := do
  let (content, rest) ← Wire.field? 4 s
  match Text.utf8Decode content with
  | .ok text => some (namesOf text, rest)
  | .error _ => none

def nameLists? : Nat → Bytes → Option (List (List String))
  | 0, _ => some []
  | n + 1, s => do
    let (names, rest) ← nameList? s
    some (names :: (← nameLists? n rest))

def parse? (payload : Bytes) : Option KexInit := do
  let (_, rest) ← Wire.take? 17 payload
  match ← nameLists? 10 rest with
  | keyExchanges :: hostKeys :: others => some ⟨keyExchanges, hostKeys, others⟩
  | _ => none

def listField (names : List String) : Bytes := Wire.field 4 (Text.utf8 (Text.join "," names))

def payload (k : KexInit) (cookie : Bytes) : Bytes :=
  kexInitMessage :: cookie ++ listField k.keyExchanges ++ listField k.hostKeys ++
    k.others.flatMap listField ++ [0, 0, 0, 0, 0]

def answer (k : KexInit) (keyExchange : String) (hostKeys : List String) : KexInit :=
  { k with keyExchanges := [keyExchange], hostKeys := hostKeys }

end KexInit
end FleetPosture.Ssh
