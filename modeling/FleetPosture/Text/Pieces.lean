/-!
Blank characters are those with the Unicode property White_Space. Text is trimmed of them and cut
into words at them (`words`); it is also cut at every separator (`pieces`), at the first or the last
one (`cutFirst?`, `cutLast?`) and at line ends (`lines`).
-/

namespace FleetPosture.Text

section Blank

def isBlank (c : Char) : Bool :=
  let n := c.toNat
  (0x09 ≤ n && n ≤ 0x0d) || n == 0x20 || n == 0x85 || n == 0xa0 || n == 0x1680 ||
    (0x2000 ≤ n && n ≤ 0x200a) || n == 0x2028 || n == 0x2029 || n == 0x202f || n == 0x205f ||
    n == 0x3000

def trimStart (s : List Char) : List Char := s.dropWhile isBlank

def trimEndWhile (p : Char → Bool) (s : List Char) : List Char :=
  (s.reverse.dropWhile p).reverse

def trimEnd (s : List Char) : List Char := trimEndWhile isBlank s

def trim (s : List Char) : List Char := trimEnd (trimStart s)

def trimmed (s : String) : String := String.ofList (trim s.toList)

end Blank

section Cutting

/-- The stretches between the elements that `p` accepts; there is always at least one. -/
def pieces {α : Type} (p : α → Bool) : List α → List (List α)
  | [] => [[]]
  | c :: cs =>
    if p c then [] :: pieces p cs
    else match pieces p cs with
      | [] => [[c]]
      | w :: ws => (c :: w) :: ws

def cutFirst? (c : Char) : List Char → Option (List Char × List Char)
  | [] => none
  | x :: xs => if x = c then some ([], xs) else (cutFirst? c xs).map fun (a, b) => (x :: a, b)

def cutLast? (c : Char) : List Char → Option (List Char × List Char)
  | [] => none
  | x :: xs =>
    match cutLast? c xs with
    | some (a, b) => some (x :: a, b)
    | none => if x = c then some ([], xs) else none

def before (word : List Char) : List Char → List Char
  | [] => []
  | x :: xs => if word.isPrefixOf (x :: xs) then [] else x :: before word xs

def dropPrefix? : List Char → List Char → Option (List Char)
  | [], s => some s
  | _ :: _, [] => none
  | p :: ps, c :: cs => if p = c then dropPrefix? ps cs else none

def stripReturn (line : List Char) : List Char :=
  if line.getLast? = some '\r' then line.dropLast else line

/-- The lines of a text. A newline ends a line, with or without a carriage return before it; what
follows the last newline is a line if it is not empty, and keeps its carriage return. -/
def lines (s : List Char) : List (List Char) :=
  let parts := pieces (· == '\n') s
  parts.dropLast.map stripReturn ++
    match parts.getLast? with
    | some (c :: cs) => [c :: cs]
    | _ => []

def words (s : List Char) : List (List Char) :=
  (pieces isBlank s).filter fun w => !w.isEmpty

def join (sep : String) (items : List String) : String := String.intercalate sep items

end Cutting

end FleetPosture.Text
