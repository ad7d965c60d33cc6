import FleetPosture.Snapshot.Basic
import FleetPosture.Text.Base64
import FleetPosture.Text.Pieces

/-!
Tables of processes: on each line the process number, the user, the command's name, and the arguments
and the environment in base64, with tabs between. Arguments and environment are lists of texts that
NUL bytes end. A row that is not whole is left out.
-/

namespace FleetPosture.ProcessTable

def texts? (field : List Char) : Option (List String) :=
  (Text.base64Decode (Text.trim field)).map fun raw =>
    ((Text.pieces (· == 0) raw).filter fun part => !part.isEmpty).map Text.utf8Lossy

def readRow? (line : List Char) : Option HostProcess :=
  match Text.pieces (· == '\t') (Text.trimEndWhile (· == '\r') line) with
  | [pid, user, command, cmdline, env] => do
    let pid ← Text.uint32? (Text.trim pid)
    let user := Text.trim user
    let command := Text.trim command
    if user.isEmpty ∨ command.isEmpty then none
    else some ⟨String.ofList command, pid, String.ofList user, ← texts? cmdline, ← texts? env, []⟩
  | _ => none

def read (output : String) : List HostProcess := (Text.lines output.toList).filterMap readRow?

end FleetPosture.ProcessTable
