import FleetPosture.Cli.Run
import FleetPosture.Ssh.HostKeys
import Std.Time.DateTime.Timestamp

/-!
The command line. It reads and writes files, but starts no programs and opens no connections, so a
scan finds no ssh client on this machine and leaves every host out.
-/

open FleetPosture

def isolatedMachine : (r : Fleet.Source.Request) → Fleet.Source.Answer r
  | .gateway (.launch _) => .missing
  | .gateway .reservePort => .error (.of Net.ConnectError.networkUnreachable.message)
  | .gateway .control => none
  | .gateway (.establish _) => ()
  | .gateway .takeControl => none
  | .gateway (.keep _) => ()
  | .gateway (.take _) => none
  | .fetch _ => .error (.of Net.ConnectError.networkUnreachable.message)
  | .resolve host =>
    match Net.Address.parse? host with
    | some a => .ok [a]
    | none => .error (.of "failed to lookup address information: Name or service not known")
  | .scanKeys endpoint =>
    (Ssh.scanHostKeys endpoint (fun _ => .error .networkUnreachable) (fun _ => .zero)).2
  | .probe _ => .failed Net.ConnectError.networkUnreachable.message

def timestampAt? (seconds : Int) : Option Timestamp :=
  let (year, month, day) := Time.ofDayNumber (Time.dayNumber 1970 1 1 + seconds / 86400)
  let second := (seconds % 86400).toNat
  Timestamp.ofFields? year.toNat month day (second / 3600) (second / 60 % 60) (second % 60) 0 0

def stamp : IO (Uuid × Timestamp) := do
  let now ← Std.Time.Timestamp.now
  let mut random := 0
  for _ in [0:10] do
    random := random * 256 + (← IO.rand 0 255)
  match timestampAt? now.toSecondsSinceUnixEpoch.val with
  | some t => return (.ofTime now.toMillisecondsSinceUnixEpoch.val.toNat random, t)
  | none => throw (.userError "the clock is out of range")

def fileText (path : String) : IO String := IO.FS.readFile path

def caught {α : Type} (action : IO α) : IO (Except Failure α) := do
  try return .ok (← action) catch e => return .error (.of e.toString)

def carryOut : (r : Cli.Request) → IO (Cli.Answer r)
  | .fileExists path => return (← caught (fileText path)).isOk
  | .readText path => caught (fileText path)
  | .appendText path text => caught do
    let h ← IO.FS.Handle.mk path .append
    h.putStr text
  | .stamp => stamp
  | .controlPath => return "/tmp/fleetaudit.sock"
  | .scan _ r => return isolatedMachine r

def main (arguments : List String) : IO UInt32 := do
  let r ← (Cli.program arguments).run carryOut
  IO.print r.stdout
  match r.error with
  | some e => IO.eprintln e
  | none => pure ()
  return UInt32.ofNat r.exitCode
