import FleetPosture.Socket.Basic

/-!
The field output of `lsof -F`: one field a line, told by its first letter. `p` begins a process and
`f` a file of it; `c` is the process's command, `P`, `n` and `TST=` are the file's protocol, name
and state. A file with a protocol and a name under a process with a number is a socket, whose local
end is the name up to `->`.
-/

namespace FleetPosture.Socket.Lsof

structure OpenFile where
  protocol : Option Transport
  name : Option (List Char)
  state : List Char

def OpenFile.new : OpenFile := ⟨none, none, []⟩

structure State where
  pid : Option UInt32
  command : List Char
  file : Option OpenFile

def State.initial : State := ⟨none, [], none⟩

def State.ended (st : State) : Listing :=
  match st.pid, st.file with
  | some pid, some ⟨some protocol, some name, state⟩ =>
    match splitEndpoint (Text.before "->".toList name) with
    | .ok (address, number) =>
      [.ok ⟨pid, String.ofList st.command, ⟨protocol, address, number, String.ofList state, none⟩⟩]
    | .error e => [.error e]
  | _, _ => []

def State.mapFile (st : State) (f : OpenFile → OpenFile) : State := { st with file := st.file.map f }

def step (st : State) (tag : Char) (value : List Char) : Listing × State :=
  if tag = 'p' then (st.ended, ⟨Text.uint32? value, [], none⟩)
  else if tag = 'c' then ([], { st with command := value })
  else if tag = 'f' then (st.ended, { st with file := some .new })
  else if tag = 'P' then
    ([], st.mapFile fun f => { f with protocol := (Transport.read (String.ofList value)).toOption })
  else if tag = 'n' then ([], st.mapFile fun f => { f with name := some value })
  else if tag = 'T' then
    match Text.dropPrefix? "ST=".toList value with
    | some state => ([], st.mapFile fun f => { f with state := state })
    | none => ([], st)
  else ([], st)

def readFields : State → List (List Char) → Listing
  | st, [] => st.ended
  | st, line :: rest =>
    match Text.trimEndWhile (· == '\r') line with
    | [] => readFields st rest
    | tag :: value =>
      let (found, st) := step st tag value
      found ++ readFields st rest

def read (output : String) : Listing := readFields .initial (Text.lines output.toList)

end FleetPosture.Socket.Lsof
