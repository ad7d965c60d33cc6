import FleetPosture.Json.Printer
import FleetPosture.Text.Uppercase

/-!
Reports, tables with a title and, if they have rows, a hint of what to do about them; and their text.
A table has upper-case headings and a column as wide as its widest cell, counted in characters; a
cell beyond the last heading is not shown. In comma-separated form each report is its title, its
header and its rows, and in JSON form all reports are one array.
-/

namespace FleetPosture

structure Report where
  title : String
  header : List String
  rows : List (List String)
  note : Option String
deriving DecidableEq, Repr

namespace Report

def isEmpty (r : Report) : Bool := r.rows.isEmpty

def anyRows (rs : List Report) : Bool := rs.any fun r => !r.isEmpty

/-! A field that holds a comma, a quote or a line break stands between quotes, with each quote in it
written twice. A record that would be an empty line is written as an empty field between quotes. -/

namespace Csv

def isSpecial (c : Char) : Bool := c == ',' || c == '"' || c == '\n' || c == '\r'

def fieldChars (s : String) : List Char :=
  if s.toList.any isSpecial then
    '"' :: (s.toList.flatMap fun c => if c = '"' then ['"', '"'] else [c]) ++ ['"']
  else s.toList

def fieldsChars : List String → List Char
  | [] => []
  | [f] => fieldChars f
  | f :: g :: fs => fieldChars f ++ ',' :: fieldsChars (g :: fs)

def recordChars (fields : List String) : List Char :=
  let line := fieldsChars fields
  (if line.isEmpty then ['"', '"'] else line) ++ ['\n']

def text (records : List (List String)) : String := String.ofList (records.flatMap recordChars)

end Csv

inductive Format
  | table
  | csv
  | json
deriving DecidableEq, Repr

namespace Table

def headings (r : Report) : List String := r.header.map Text.upper

def widen : List Nat → List String → List Nat
  | w :: ws, c :: cs => max w c.length :: widen ws cs
  | ws, _ => ws

def widths (r : Report) : List Nat := r.rows.foldl widen ((headings r).map String.length)

def rule (ws : List Nat) : String :=
  ws.foldl (fun s w => s ++ "".pushn '-' (w + 2) ++ "+") "+"

def cell (c : String) (w : Nat) : String := " " ++ c ++ "".pushn ' ' (w - c.length + 1) ++ "|"

def row (ws : List Nat) (cells : List String) : String :=
  "|" ++ String.join (List.zipWith cell cells ws)

def lines (r : Report) : List String :=
  let ws := widths r
  [r.title, "", rule ws, row ws (headings r), rule ws] ++ r.rows.map (row ws) ++
    (if r.isEmpty then [] else rule ws :: r.note.toList) ++ [""]

end Table

def records (r : Report) : List (List String) := [r.title] :: r.header :: r.rows

def toJson (r : Report) : Json :=
  let texts (xs : List String) : Json := .array (xs.map .string)
  .object ([("title", .string r.title), ("header", texts r.header),
    ("rows", .array (r.rows.map texts))] ++
    match r.note with
    | some note => [("note", .string note)]
    | none => [])

def render (rs : List Report) : Format → String
  | .table => String.join (rs.flatMap fun r => (Table.lines r).map (· ++ "\n"))
  | .csv => Csv.text (rs.flatMap records)
  | .json => (Json.array (rs.map toJson)).pretty ++ "\n"

end Report
end FleetPosture
