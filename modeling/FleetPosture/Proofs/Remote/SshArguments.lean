import FleetPosture.Fleet.HostList
import FleetPosture.Remote.Ssh
import Mathlib.Tactic.SplitIfs

/-! What an ssh client makes of its arguments. The options of a session and the remote command stay
what they are whatever they contain, since every option has its value in an argument of its own and
the command comes after the host. The host stands where an option can stand as well, so that an
address with a dash in front is read as one. -/

namespace FleetPosture.Remote

structure Invocation where
  options : List (String × Option String)
  destination : Option String
  command : List String
deriving DecidableEq, Repr

namespace Invocation

def ofOperands : List String → Invocation
  | [] => ⟨[], none, []⟩
  | destination :: command => ⟨[], some destination, command⟩

def withOption (option : String × Option String) (i : Invocation) : Invocation :=
  { i with options := option :: i.options }

def takesNext (argument : String) : Bool := argument ∈ ["-o", "-p", "-l", "-i"]

def isDashed (argument : String) : Bool := argument.toList.head? == some '-'

def read : List String → Invocation
  | [] => ofOperands []
  | argument :: rest =>
    if takesNext argument then
      match rest with
      | [] => withOption (argument, none) (ofOperands [])
      | value :: rest => (read rest).withOption (argument, some value)
    else if argument = "--" then ofOperands rest
    else if isDashed argument then (read rest).withOption (argument, none)
    else ofOperands (argument :: rest)

end Invocation

namespace SshSession

open Invocation (read takesNext isDashed)

def settings (o : SshOptions) : List (String × String) :=
  [("-o", "BatchMode=yes"), ("-o", "StrictHostKeyChecking=no"),
    ("-o", "UserKnownHostsFile=/dev/null"), ("-o", "LogLevel=ERROR"),
    ("-o", "ConnectTimeout=" ++ toString (max 1 (o.connectTimeoutMs / 1000))),
    ("-p", toString o.port.toNat), ("-l", o.user)] ++
  (o.identityFile.map fun file => ("-i", file)).toList ++
  (o.proxyCommand.map fun proxy => ("-o", "ProxyCommand=" ++ proxy)).toList

/-- The client has the session's options and no others, connects to its address and runs the
command there. -/
def intended (s : SshSession) (command : String) : Invocation :=
  ⟨(settings s.options).map fun (flag, value) => (flag, some value), some s.address,
    [s.remoteCommand command]⟩

theorem optionArguments_eq (o : SshOptions) :
    optionArguments o = (settings o).flatMap fun (flag, value) => [flag, value] := by
  cases hi : o.identityFile <;> cases hp : o.proxyCommand <;>
    simp [optionArguments, settings, hi, hp]

theorem takesNext_of_mem_settings {o : SshOptions} {setting : String × String}
    (h : setting ∈ settings o) : takesNext setting.1 := by
  simp only [settings, List.mem_append, List.mem_cons, List.not_mem_nil, or_false,
    Option.mem_toList, Option.map_eq_some_iff] at h
  rcases h with ((rfl | rfl | rfl | rfl | rfl | rfl | rfl) | ⟨_, _, rfl⟩) | ⟨_, _, rfl⟩ <;>
    simp [takesNext]

theorem read_flatMap_append (settings : List (String × String))
    (h : ∀ setting ∈ settings, takesNext setting.1) (rest : List String) :
    read (settings.flatMap (fun (flag, value) => [flag, value]) ++ rest) =
      { read rest with
        options := (settings.map fun (flag, value) => (flag, some value)) ++ (read rest).options } := by
  induction settings with
  | nil => rfl
  | cons setting settings ih =>
    obtain ⟨flag, value⟩ := setting
    have hflag : takesNext flag := h _ (List.mem_cons_self ..)
    have hread : ∀ rest, read (flag :: value :: rest) = (read rest).withOption (flag, some value) := by
      intro rest
      rw [Invocation.read, if_pos hflag]
    have hlater := ih fun s hs => h s (List.mem_cons_of_mem _ hs)
    simp only [List.flatMap_cons, List.cons_append, List.nil_append, hread, hlater,
      Invocation.withOption, List.map_cons]

theorem read_of_not_isDashed {address : String} (h : ¬isDashed address) (command : String) :
    read [address, command] = ⟨[], some address, [command]⟩ := by
  have hflag : ¬takesNext address := by
    intro hmem
    simp only [takesNext, decide_eq_true_eq, List.mem_cons, List.not_mem_nil, or_false] at hmem
    rcases hmem with rfl | rfl | rfl | rfl <;> exact h (by decide)
  have hend : address ≠ "--" := by
    rintro rfl
    exact h (by decide)
  rw [Invocation.read, if_neg hflag, if_neg hend, if_neg h]
  rfl

theorem command_read_of_isDashed {address : String} (h : isDashed address) (command : String) :
    (read [address, command]).command = [] := by
  have hlast : (read [command]).command = [] := by
    rw [Invocation.read]
    split_ifs <;> rfl
  rw [Invocation.read]
  split_ifs
  · rfl
  · rfl
  · exact hlast

/-- What the client reads is what the session means if and only if its address has no dash in front. -/
theorem read_arguments_eq_intended_iff (s : SshSession) (command : String) :
    read (s.arguments command) = s.intended command ↔ s.address.toList.head? ≠ some '-' := by
  have hread := read_flatMap_append (settings s.options) (fun _ h => takesNext_of_mem_settings h)
    [s.address, s.remoteCommand command]
  rw [← optionArguments_eq] at hread
  have hdash : isDashed s.address ↔ s.address.toList.head? = some '-' := by simp [isDashed]
  rw [arguments, hread, Ne, ← hdash]
  constructor
  · intro heq hdashed
    have hcommand := congrArg Invocation.command heq
    simp [command_read_of_isDashed hdashed, intended] at hcommand
  · intro hplain
    rw [read_of_not_isDashed hplain]
    simp [intended]

def dashed : SshSession := .new "-oProxyCommand=reboot" .standard

theorem listed_address_read_as_option :
    (Fleet.HostList.read "-oProxyCommand=reboot\n").toOption = some [.ofAddress dashed.address] ∧
    Fleet.chooseAddress? none [dashed.address] = some dashed.address ∧
    read (dashed.arguments "true") =
      ⟨(dashed.intended "true").options ++ [(dashed.address, none)], some "true", []⟩ ∧
    read (dashed.arguments "true") ≠ dashed.intended "true" := by
  decide

end SshSession
end FleetPosture.Remote
