import FleetPosture.Text.Utf8

/-!
Programs started on the auditing machine, and how they end; and text as one word of a shell command
on a host: between single quotes, where nothing is special but the single quote itself, for which
the quotes are closed and opened again around an escaped one.
-/

namespace FleetPosture.Remote

open Text (Bytes)

inductive ExitStatus
  | code (code : Nat)
  | signal (number : Nat)
deriving DecidableEq, Repr

namespace ExitStatus

def signalNames : List String :=
  ["SIGHUP", "SIGINT", "SIGQUIT", "SIGILL", "SIGTRAP", "SIGABRT", "SIGBUS", "SIGFPE", "SIGKILL",
    "SIGUSR1", "SIGSEGV", "SIGUSR2", "SIGPIPE", "SIGALRM", "SIGTERM", "SIGSTKFLT", "SIGCHLD",
    "SIGCONT", "SIGSTOP", "SIGTSTP", "SIGTTIN", "SIGTTOU", "SIGURG", "SIGXCPU", "SIGXFSZ",
    "SIGVTALRM", "SIGPROF", "SIGWINCH", "SIGIO", "SIGPWR", "SIGSYS"]

def isSuccess (s : ExitStatus) : Bool := s == code 0

def text : ExitStatus → String
  | code n => "exit status: " ++ toString n
  | signal n =>
    match signalNames[n - 1]? with
    | some name => "signal: " ++ toString n ++ " (" ++ name ++ ")"
    | none => "signal: " ++ toString n

end ExitStatus

structure Finished where
  stdout : Bytes
  stderr : Bytes
  status : ExitStatus
  elapsedMs : Nat
deriving DecidableEq, Repr

inductive Launch
  | missing
  | finished (result : Finished)
deriving DecidableEq, Repr

def Launch.missingMessage : String := "No such file or directory (os error 2)"

def quotedChar (c : Char) : List Char := if c = '\'' then ['\'', '\\', '\'', '\''] else [c]

def shellQuoted (s : String) : String :=
  String.ofList ('\'' :: s.toList.flatMap quotedChar ++ ['\''])

end FleetPosture.Remote
