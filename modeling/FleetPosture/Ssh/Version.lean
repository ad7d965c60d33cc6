import FleetPosture.Ssh.Packet

/-!
The version lines with which an SSH connection begins. A server may send other lines before its own.
-/

namespace FleetPosture.Ssh

open Text (Bytes)
open Net (StreamEnd)

def clientVersion : Bytes := Text.utf8 "SSH-2.0-fleetaudit_0.1\r\n"

def maxPreambleLines : Nat := 32

def newline : UInt8 := 10

def cutLine? : Bytes → Option (Bytes × Bytes)
  | [] => none
  | b :: bs => if b = newline then some ([b], bs) else (cutLine? bs).map fun (l, r) => (b :: l, r)

/-- The first line and the rest. The end of the stream ends a line too. -/
def readLine (ending : StreamEnd) (s : Bytes) : Except Fault (Bytes × Bytes) :=
  match cutLine? s, ending with
  | some (line, rest), _ => .ok (line, rest)
  | none, .stalled => .error .timedOut
  | none, .closed => if s.isEmpty then .error .noVersion else .ok (s, [])

/-- What follows the version line, which is one of the first `n` lines. -/
def afterVersion (ending : StreamEnd) : Nat → Bytes → Except Fault Bytes
  | 0, _ => .error .noVersionLine
  | n + 1, s => do
    let (line, rest) ← readLine ending s
    match Text.utf8Decode line with
    | .error fault => .error (.versionText fault)
    | .ok text =>
      if "SSH-".toList.isPrefixOf text.toList then .ok rest else afterVersion ending n rest

end FleetPosture.Ssh
