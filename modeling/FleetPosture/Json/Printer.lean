import FleetPosture.Json.Basic
import FleetPosture.Text.Numeral

/-!
Writing JSON: on one line without blanks (`compact`), or one member a line, two spaces deeper for
each level (`pretty`). Strings escape the quote, the backslash and control characters only.
-/

namespace FleetPosture.Json

def escapedChar (c : Char) : List Char :=
  if c = '"' then ['\\', '"']
  else if c = '\\' then ['\\', '\\']
  else if c = '\x08' then ['\\', 'b']
  else if c = '\t' then ['\\', 't']
  else if c = '\n' then ['\\', 'n']
  else if c = '\x0c' then ['\\', 'f']
  else if c = '\r' then ['\\', 'r']
  else if c.toNat < 0x20 then
    ['\\', 'u', '0', '0', Nat.digitChar (c.toNat / 16), Nat.digitChar (c.toNat % 16)]
  else [c]

def stringChars (s : String) : List Char := '"' :: s.toList.flatMap escapedChar ++ ['"']

def integerChars (n : Int) : List Char :=
  match n with
  | .ofNat m => Nat.toDigits 10 m
  | .negSucc m => '-' :: Nat.toDigits 10 (m + 1)

def scalarChars : Json → List Char
  | .null => "null".toList
  | .bool true => "true".toList
  | .bool false => "false".toList
  | .integer n => integerChars n
  | .real numeral => numeral.toList
  | .string s => stringChars s
  | .array _ => ['[', ']']
  | .object _ => ['\x7b', '\x7d']
  | .illFormed => "null".toList

mutual

def compactChars : Json → List Char
  | .array items => '[' :: compactItems items ++ [']']
  | .object fields => '\x7b' :: compactFields fields ++ ['\x7d']
  | v => scalarChars v

def compactItems : List Json → List Char
  | [] => []
  | [v] => compactChars v
  | v :: w :: vs => compactChars v ++ ',' :: compactItems (w :: vs)

def compactFields : List (String × Json) → List Char
  | [] => []
  | [(k, v)] => stringChars k ++ ':' :: compactChars v
  | (k, v) :: f :: fs => stringChars k ++ ':' :: compactChars v ++ ',' :: compactFields (f :: fs)

end

def compact (v : Json) : String := String.ofList (compactChars v)

def lineBreak (depth : Nat) : List Char := '\n' :: List.replicate (2 * depth) ' '

mutual

def prettyChars (depth : Nat) : Json → List Char
  | .array (v :: vs) => '[' :: prettyItems (depth + 1) (v :: vs) ++ lineBreak depth ++ [']']
  | .object (f :: fs) =>
    '\x7b' :: prettyFields (depth + 1) (f :: fs) ++ lineBreak depth ++ ['\x7d']
  | v => scalarChars v

def prettyItems (depth : Nat) : List Json → List Char
  | [] => []
  | [v] => lineBreak depth ++ prettyChars depth v
  | v :: w :: vs => lineBreak depth ++ prettyChars depth v ++ ',' :: prettyItems depth (w :: vs)

def prettyFields (depth : Nat) : List (String × Json) → List Char
  | [] => []
  | [(k, v)] => lineBreak depth ++ stringChars k ++ ':' :: ' ' :: prettyChars depth v
  | (k, v) :: f :: fs =>
    lineBreak depth ++ stringChars k ++ ':' :: ' ' :: prettyChars depth v ++
      ',' :: prettyFields depth (f :: fs)

end

def pretty (v : Json) : String := String.ofList (prettyChars 0 v)

end FleetPosture.Json
