/-!
Command lines cut into options and other arguments. The value of an option follows an equals sign or
is the next argument, unless that begins with a hyphen; two hyphens alone end the options. No option
may be given twice.
-/

namespace FleetPosture.Cli

inductive OptionKind
  | flag
  | value (isValid : String → Bool)

inductive Stop
  | usage
  | help
  | version
deriving DecidableEq, Repr

structure Grammar where
  options : List (String × OptionKind)
  maxArguments : Nat
  hasVersion : Bool

structure Matches where
  options : List (String × String)
  arguments : List String
deriving DecidableEq, Repr

namespace Matches

def empty : Matches := ⟨[], []⟩

def has (m : Matches) (name : String) : Bool := m.options.any (·.1 == name)

def get? (m : Matches) (name : String) : Option String := m.options.lookup name

def note (m : Matches) (name value : String) : Except Stop Matches :=
  if m.has name then .error .usage else .ok { m with options := m.options ++ [(name, value)] }

def argument (s : Grammar) (m : Matches) (a : String) : Except Stop Matches :=
  if m.arguments.length < s.maxArguments then .ok { m with arguments := m.arguments ++ [a] }
  else .error .usage

end Matches

inductive Argument
  | long (name : List Char) (value : Option (List Char))
  | short (letters : List Char)
  | endOfOptions
  | other
deriving DecidableEq, Repr

namespace Argument

def ofChars : List Char → Argument
  | ['-'] => other
  | ['-', '-'] => endOfOptions
  | '-' :: '-' :: r =>
    long (r.takeWhile (· != '=')) (if r.contains '=' then some (r.dropWhile (· != '=')).tail else none)
  | '-' :: r => short r
  | _ => other

def isValue (a : String) : Bool := ofChars a.toList == other

end Argument

namespace Grammar

def take (kind : OptionKind) (m : Matches) (name : String) (value : Option String) :
    Except Stop Matches :=
  match kind, value with
  | .flag, none => m.note name ""
  | .value isValid, some v => if isValid v then m.note name v else .error .usage
  | _, _ => .error .usage

def shortStop (s : Grammar) : List Char → Stop
  | 'h' :: _ => .help
  | 'V' :: _ => if s.hasVersion then .version else .usage
  | _ => .usage

def longStop? (s : Grammar) (name : String) : Option Stop :=
  if name = "help" then some .help
  else if name = "version" ∧ s.hasVersion then some .version
  else none

/-- Reads arguments to the end, or if `isLeading` up to the first that is no option, which is left;
`pending` is an option whose value comes next. -/
def read (s : Grammar) (isLeading : Bool) :
    List String → Option (String × OptionKind) → Matches → Except Stop (Matches × List String)
  | [], some _, _ => .error .usage
  | [], none, m => .ok (m, [])
  | a :: rest, some (name, kind), m =>
    if Argument.isValue a then do read s isLeading rest none (← take kind m name (some a))
    else .error .usage
  | a :: rest, none, m =>
    match Argument.ofChars a.toList with
    | .endOfOptions => do
      if isLeading then throw .usage
      return (← rest.foldlM (Matches.argument s) m, [])
    | .short letters => .error (s.shortStop letters)
    | .other =>
      if isLeading then .ok (m, a :: rest)
      else do read s isLeading rest none (← m.argument s a)
    | .long name value =>
      let name := String.ofList name
      let value := value.map String.ofList
      match s.longStop? name, s.options.lookup name with
      | some stop, _ => .error (if value.isNone then stop else .usage)
      | none, none => .error .usage
      | none, some .flag => do read s isLeading rest none (← take .flag m name value)
      | none, some kind =>
        if value.isSome then do read s isLeading rest none (← take kind m name value)
        else read s isLeading rest (some (name, kind)) m

end Grammar
end FleetPosture.Cli
