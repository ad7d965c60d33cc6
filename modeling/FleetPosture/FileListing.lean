import FleetPosture.Text.Numeral
import FleetPosture.Text.Pieces

/-!
Files with their permissions, and listings of them: on each line the permission bits in octal, a tab
and the path. Other lines are left out.
-/

namespace FleetPosture

structure FileEntry where
  path : String
  permissions : UInt32
deriving DecidableEq, Repr

namespace FileEntry

def isWorldReadable (f : FileEntry) : Bool := f.permissions &&& 4 != 0

end FileEntry

namespace FileListing

def readLine? (line : List Char) : Option FileEntry := do
  let (mode, path) ← Text.cutFirst? '\t' (Text.trimEndWhile (· == '\r') line)
  let permissions ← Text.numeral? 8 Text.maxU32 (Text.trim mode)
  if path.isEmpty then none else some ⟨String.ofList path, UInt32.ofNat permissions⟩

def read (output : String) : List FileEntry := (Text.lines output.toList).filterMap readLine?

end FileListing
end FleetPosture
