import FleetPosture.Snapshot.Basic
import FleetPosture.Ssh.KexInit
import FleetPosture.Ssh.Version
import FleetPosture.Text.Base64

/-!
The host keys of an SSH server, without logging in. A first connection shows which host key
algorithms the server has; then one connection for each family of them goes as far as the reply to a
key exchange, which holds the key. A family whose connection fails is left out.
-/

namespace FleetPosture.Ssh

open Text (Bytes)
open Net (StreamEnd)

/-- What a server sends on a connection in all, and how that ends, given all that the client sends. -/
abbrev Peer := Bytes → Bytes × StreamEnd

structure Randoms where
  cookie : Bytes
  curvePoint : Bytes
  groupElement : Bytes

def Randoms.zero : Randoms := ⟨List.replicate 16 0, List.replicate 32 0, List.replicate 256 0⟩

/-- The families of host key algorithms: those of one family give the same key. -/
def keyFamilies : List (List String) :=
  [["ssh-ed25519"], ["ecdsa-sha2-nistp256"], ["ecdsa-sha2-nistp384"], ["ecdsa-sha2-nistp521"],
    ["rsa-sha2-512", "rsa-sha2-256", "ssh-rsa"], ["ssh-dss"]]

def curveExchanges : List String := ["curve25519-sha256", "curve25519-sha256@libssh.org"]

def groupExchanges : List String :=
  ["diffie-hellman-group14-sha256", "diffie-hellman-group14-sha1"]

def disconnectMessage : UInt8 := 1
def exchangeInitMessage : UInt8 := 30
def exchangeReplyMessage : UInt8 := 31

def groupBytes : Bytes → Bytes
  | [] => []
  | b :: bs => max (b &&& 0x7f) 1 :: bs

def chooseExchange? (server : KexInit) (r : Randoms) : Option (String × Bytes) :=
  let choose (names : List String) := names.find? (· ∈ server.keyExchanges)
  ((choose curveExchanges).map (·, r.curvePoint)).or
    ((choose groupExchanges).map (·, groupBytes r.groupElement))

def clientOffer (server : KexInit) (family : List String) (r : Randoms) : Except Fault Bytes :=
  match chooseExchange? server r with
  | none => .error (.noKeyExchange server.keyExchanges)
  | some (exchange, share) =>
    let offered := family.filter (· ∈ server.hostKeys)
    .ok (frame ((server.answer exchange offered).payload r.cookie) ++
      frame (exchangeInitMessage :: Wire.field 4 share))

def judgeKexInit (payload : Bytes) : Option (Except Fault KexInit) :=
  match payload.head? with
  | none => none
  | some kind =>
    if kind = kexInitMessage then
      some (match KexInit.parse? payload with
        | some k => .ok k
        | none => .error .malformedKexInit)
    else if kind = disconnectMessage then some (.error .disconnected)
    else none

/-- The key of a reply's content, which begins with the key as a field; the key begins with its type
as a field. -/
def readKey (content : Bytes) : Except Fault HostKey :=
  match Wire.field? 4 content with
  | none => .error .malformedReply
  | some (key, _) =>
    match Wire.field? 4 key with
    | none => .error .malformedKey
    | some (type, _) => .ok ⟨Text.utf8Lossy type, Text.base64 key⟩

def judgeReply : Bytes → Option (Except Fault HostKey)
  | [] => none
  | kind :: content =>
    if kind = exchangeReplyMessage then some (readKey content)
    else if kind = disconnectMessage then some (.error .disconnectedInExchange)
    else none

def readLists (ending : StreamEnd) (s : Bytes) : Except Fault (KexInit × Bytes) := do
  await ending judgeKexInit (← afterVersion ending maxPreambleLines s)

structure Outcome (α : Type) where
  sent : Bytes
  result : Except Fault α

def listing (peer : Peer) : Outcome KexInit :=
  let (s, ending) := peer clientVersion
  ⟨clientVersion, (readLists ending s).map (·.1)⟩

def keyExchange (peer : Peer) (family : List String) (r : Randoms) : Outcome HostKey :=
  let (s, ending) := peer clientVersion
  match readLists ending s with
  | .error f => ⟨clientVersion, .error f⟩
  | .ok (server, rest) =>
    match clientOffer server family r with
    | .error f => ⟨clientVersion, .error f⟩
    | .ok offer =>
      let sent := clientVersion ++ offer
      let (s', ending) := peer sent
      ⟨sent, (await ending judgeReply (s'.drop (s.length - rest.length))).map (·.1)⟩

def connected {α : Type} (use : Peer → Outcome α) :
    Except Net.ConnectError Peer → List Bytes × Except Fault α
  | .error .timedOut => ([], .error .timedOut)
  | .error e => ([], .error (.connect e))
  | .ok peer => ([(use peer).sent], (use peer).result)

def familiesOf (server : KexInit) : List (List String) :=
  keyFamilies.filter fun family => family.any (· ∈ server.hostKeys)

/-- The host keys of a server, whose connections are numbered from 0, and what the client sent on
each connection that was made. -/
def scanHostKeys (endpoint : Net.Endpoint) (dial : Nat → Except Net.ConnectError Peer)
    (randoms : Nat → Randoms) : List Bytes × Except Failure (List HostKey) :=
  match connected listing (dial 0) with
  | (sent, .error fault) => (sent, .error (fault.toFailure endpoint))
  | (sent, .ok server) =>
    let attempts := (familiesOf server).mapIdx fun i family =>
      connected (keyExchange · family (randoms (i + 1))) (dial (i + 1))
    let keys := attempts.filterMap fun (_, r) => r.toOption
    (sent ++ attempts.flatMap (·.1), .ok keys.eraseDups)

end FleetPosture.Ssh
