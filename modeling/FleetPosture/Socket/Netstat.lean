import FleetPosture.Socket.Basic

/-!
The table of `netstat -tunap`: the protocol, two queue lengths, the local and the foreign address,
the state unless the protocol has none, and the owner as `pid/command`. A row of six fields is one
without a state.
-/

namespace FleetPosture.Socket.Netstat

structure Row where
  protocol : Transport
  localEnd : List Char
  state : List Char
  pid : UInt32
  command : List Char

def protocol? (s : List Char) : Option Transport :=
  if s = "tcp".toList ∨ s = "tcp6".toList then some .tcp
  else if s = "udp".toList ∨ s = "udp6".toList then some .udp
  else none

def readOwner (s : List Char) : Except ReadError (UInt32 × List Char) :=
  match Text.cutFirst? '/' s with
  | none => .error (.missingField "pid/command")
  | some (pid, command) =>
    match Text.uint32? pid with
    | none => .error (.number (String.ofList pid))
    | some n => .ok (n, command)

def readRow (line : List Char) : Except ReadError Row :=
  match Text.words line with
  | protocol :: _ :: _ :: localEnd :: _ :: sixth :: more =>
    match protocol? protocol with
    | none => .error (.unsupportedProtocol (String.ofList protocol))
    | some p => do
      let (state, owner) := match more with
        | [] => ([], sixth)
        | seventh :: _ => (sixth, seventh)
      let (pid, command) ← readOwner owner
      .ok ⟨p, localEnd, state, pid, command⟩
  | _ => .error (.missingField "pid/command")

def readLine (line : List Char) : Except ReadError Entry := do
  let row ← readRow line
  let (address, number) ← splitEndpoint row.localEnd
  .ok ⟨row.pid, String.ofList row.command,
    ⟨row.protocol, address, number, String.ofList row.state, none⟩⟩

def read (output : String) : Listing := (Text.lines output.toList).map readLine

end FleetPosture.Socket.Netstat
