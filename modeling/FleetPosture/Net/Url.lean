import FleetPosture.Net.Url.Host

/-!
URLs as browsers read them: blanks at the ends and line breaks anywhere count for nothing, for the
schemes of the web a backslash is a slash, and dots in paths are resolved. A relative reference
replaces what follows the last slash of the path that it is joined to.
-/

namespace FleetPosture.Net

namespace Url

structure Authority where
  user : String
  password : Option String
  host : String
  port : Option Nat
deriving DecidableEq, Repr

inductive Path
  | segments (list : List String)
  /-- Text that is no hierarchy; nothing can be relative to it. -/
  | text (s : String)
deriving DecidableEq, Repr

end Url

structure Url where
  scheme : String
  authority : Option Url.Authority
  path : Url.Path
  query : Option String
  fragment : Option String
deriving DecidableEq, Repr

namespace Url

def Authority.text (a : Authority) : String :=
  let password := match a.password with
    | some p => ":" ++ p
    | none => ""
  let userinfo := a.user ++ password
  (if userinfo.isEmpty then "" else userinfo ++ "@") ++ a.host ++
    match a.port with
    | some n => ":" ++ toString n
    | none => ""

def Path.toString : Path → String
  | segments list => String.join (list.map ("/" ++ ·))
  | text s => s

def text (u : Url) : String :=
  let part (sign : String) : Option String → String
    | some s => sign ++ s
    | none => ""
  u.scheme ++ ":" ++ part "//" (u.authority.map Authority.text) ++ u.path.toString ++
    part "?" u.query ++ part "#" u.fragment

def specialPorts : List (String × Option Nat) :=
  [("http", some 80), ("https", some 443), ("ws", some 80), ("wss", some 443), ("ftp", some 21),
    ("file", none)]

def isSpecial (scheme : String) : Bool := specialPorts.any (·.1 == scheme)

def significant (s : String) : List Char :=
  let isBlank (c : Char) : Bool := c.toNat ≤ 0x20
  (Text.trimEndWhile isBlank (s.toList.dropWhile isBlank)).filter fun c =>
    c != '\t' && c != '\n' && c != '\r'

def isSchemeChar (c : Char) : Bool := c.isAlphanum || c == '+' || c == '-' || c == '.'

def cutScheme? (s : List Char) : Option (String × List Char) := do
  let (scheme, rest) ← Text.cutFirst? ':' s
  if (scheme.head?.map Char.isAlpha).getD false && scheme.all isSchemeChar then
    some (String.ofList (scheme.map Char.toLower), rest)
  else none

def isSlash (special : Bool) (c : Char) : Bool := c == '/' || (special && c == '\\')

def encodedText (reserved : Char → Bool) (s : List Char) : String :=
  String.ofList (percentEncoded reserved s)

def readUserinfo (s : List Char) : String × Option String :=
  match Text.cutFirst? ':' s with
  | none => (encodedText inUserinfo s, none)
  | some (user, password) =>
    (encodedText inUserinfo user,
      if password.isEmpty then none else some (encodedText inUserinfo password))

def cutPort (inBrackets : Bool) : List Char → List Char × Option (List Char)
  | [] => ([], none)
  | c :: r =>
    if c = ':' ∧ !inBrackets then ([], some r)
    else
      let (host, port) := cutPort ((inBrackets || c == '[') && c != ']') r
      (c :: host, port)

/-- The port of a URL with a scheme; no digits mean the scheme's own port. -/
def readPort (scheme : String) (s : List Char) : Except Fault (Option Nat) :=
  if s.isEmpty then .ok none
  else
    match (Text.digits? 10 s).filter (· ≤ Text.maxU16) with
    | none => .error .port
    | some n => .ok (if specialPorts.lookup scheme = some (some n) then none else some n)

def readAuthority (scheme : String) (isCut : Bool) (s : List Char) : Except Fault Authority := do
  let (userinfo, location) := (Text.cutLast? '@' s).getD ([], s)
  let (user, password) := readUserinfo userinfo
  let (name, portText) := cutPort false location
  let mustHaveHost := isSpecial scheme || portText.isSome || !user.isEmpty || password.isSome ||
    (s.contains '@' && isCut)
  if name.isEmpty && mustHaveHost then throw .emptyHost
  let host ← if isSpecial scheme then readHost name else readAnyHost name
  return ⟨user, password, host, ← readPort scheme (portText.getD [])⟩

def isDot (s : String) : Bool := s == "." || s.toLower == "%2e"

def isDoubleDot (s : String) : Bool :=
  ["..", ".%2e", "%2e.", "%2e%2e"].contains s.toLower

def extended (segments : List String) : List String → List String
  | [] => segments
  | [s] =>
    if isDoubleDot s then segments.dropLast ++ [""]
    else if isDot s then segments ++ [""]
    else segments ++ [s]
  | s :: r =>
    extended
      (if isDoubleDot s then segments.dropLast else if isDot s then segments else segments ++ [s]) r

def segmentsOf (special : Bool) (path : List Char) : List String :=
  (Text.pieces (isSlash special) path).map (encodedText inPath)

structure Tail where
  path : List Char
  query : Option (List Char)
  fragment : Option (List Char)

def cutTail (s : List Char) : Tail :=
  let (s, fragment) := match Text.cutFirst? '#' s with
    | some (before, after) => (before, some after)
    | none => (s, none)
  match Text.cutFirst? '?' s with
  | some (path, query) => ⟨path, some query, fragment⟩
  | none => ⟨s, none, fragment⟩

def Tail.complete (t : Tail) (scheme : String) (authority : Option Authority) (path : Path) : Url :=
  ⟨scheme, authority, path, t.query.map (encodedText (inQuery (isSpecial scheme))),
    t.fragment.map (encodedText inFragment)⟩

def isDelimiter (special : Bool) (c : Char) : Bool := isSlash special c || c == '?' || c == '#'

def pathAfter (special : Bool) (path : List Char) : Path :=
  match path with
  | [] => .segments (if special then [""] else [])
  | _ :: r => .segments (extended [] (segmentsOf special r))

def afterSlashes (scheme : String) (s : List Char) : Except Fault Url := do
  let special := isSpecial scheme
  let (place, rest) := s.span fun c => !isDelimiter special c
  let place ← readAuthority scheme (!rest.isEmpty) place
  let tail := cutTail rest
  return tail.complete scheme (some place) (pathAfter special tail.path)

/-- A path of files begins with one slash only. -/
def filePath (path : List Char) : Path :=
  let segments := extended [] (segmentsOf true (path.dropWhile (isSlash true)))
  .segments (match segments.dropWhile String.isEmpty with
    | [] => [""]
    | list => list)

def ofFile (s : List Char) : Except Fault Url := do
  let (name, rest) := match s with
    | a :: b :: r =>
      if isSlash true a && isSlash true b then r.span fun c => !isDelimiter true c else ([], s)
    | _ => ([], s)
  let host ← if name.isEmpty then pure "" else readHost name
  let tail := cutTail rest
  return tail.complete "file" (some ⟨"", none, if host = "localhost" then "" else host, none⟩)
    (filePath tail.path)

def parse (s : String) : Except Fault Url :=
  match cutScheme? (significant s) with
  | none => .error .noScheme
  | some (scheme, rest) =>
    if scheme = "file" then ofFile rest
    else if isSpecial scheme then afterSlashes scheme (rest.dropWhile (isSlash true))
    else
      let tail := cutTail rest
      match rest with
      | '/' :: '/' :: r => afterSlashes scheme r
      | '/' :: _ => .ok (tail.complete scheme none (pathAfter false tail.path))
      | _ => .ok (tail.complete scheme none (.text (encodedText isControl tail.path)))

def join (base : Url) (reference : String) : Except Fault Url :=
  match base.path with
  | .text _ => .error .noHierarchy
  | .segments list =>
    let tail := cutTail (significant reference)
    let path := extended list.dropLast (segmentsOf (isSpecial base.scheme) tail.path)
    .ok (tail.complete base.scheme base.authority (.segments path))

end Url
end FleetPosture.Net
