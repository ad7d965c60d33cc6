import FleetPosture.Inventory.Command
import FleetPosture.Proofs.Remote.ShellWords
import FleetPosture.Remote.Ssh

/-! What the shells of a host make of an inventory's commands: the arguments of the search for files
are its own words and each excluded path, whatever characters the path has, also when the search is
itself one quoted word of a command under `sudo`. -/

namespace FleetPosture.Inventory

open Remote (SshSession SshOptions shellQuoted)
open Shell (Command Token Leads Follows tokens? command? words)

def isOneOf (paths : List String) : List String :=
  ["-o"].intercalate (paths.map fun p => ["-path", p])

def isOneOfText (paths : List String) : String :=
  Text.join " -o " (paths.map fun p => "-path " ++ shellQuoted p)

def searchExcept (paths : List String) : Command where
  arguments := ["find", "/", "("] ++ isOneOf paths ++
    [")", "-prune", "-o", "-type", "f", "-printf", "%m\\t%p\\n"]
  outputs := [("2", "/dev/null")]

def underSudo? (c : Command) : Option Command :=
  match c with
  | ⟨["sudo", "-n", "sh", "-c", text], []⟩ => command? text
  | _ => none

theorem tokens?_path (p : String) :
    tokens? ("-path " ++ shellQuoted p).toList = some (words ["-path", p]) := by
  have hpath : Leads "-path ".toList (words ["-path"]) :=
    .words (s := "-path".toList) (b := ' ') (by decide) (by decide)
  simpa [words] using hpath.tokens?_shellQuoted .nothing p

theorem tokens?_isOneOfText (p : String) (ps : List String) :
    tokens? (isOneOfText (p :: ps)).toList = some (words (isOneOf (p :: ps))) := by
  induction ps generalizing p with
  | nil => simpa [isOneOfText, isOneOf, Text.join] using tokens?_path p
  | cons q qs ih =>
    have hor : tokens? "-o".toList = some (words ["-o"]) := by decide
    have htext : (isOneOfText (p :: q :: qs)).toList =
        ("-path " ++ shellQuoted p).toList ++ ' ' ::
          ("-o".toList ++ ' ' :: (isOneOfText (q :: qs)).toList) := by
      simp [isOneOfText, Text.join]
    have hwords : isOneOf (p :: q :: qs) = ["-path", p] ++ (["-o"] ++ isOneOf (q :: qs)) := by
      simp [isOneOf, List.intercalate_cons_cons]
    rw [htext, Shell.tokens?_append (tokens?_path p) (by decide),
      Shell.tokens?_append hor (by decide), ih, hwords]
    simp [words]

theorem command?_findFiles (extra : List String) :
    command? (findFiles extra) = some (searchExcept (excludedPaths ++ extra)) := by
  obtain ⟨p, ps, hpaths⟩ : ∃ p ps, excludedPaths ++ extra = p :: ps := ⟨_, _, rfl⟩
  have hbegin : tokens? "find / \\(".toList = some (words ["find", "/", "("]) := by decide
  have hend : tokens? "\\) -prune -o -type f -printf '%m\\t%p\\n' 2>/dev/null".toList =
      some (words [")", "-prune", "-o", "-type", "f", "-printf", "%m\\t%p\\n"] ++
        [.output "2".toList, .word "/dev/null".toList]) := by
    decide
  have htext : (findFiles extra).toList =
      "find / \\(".toList ++ ' ' :: ((isOneOfText (p :: ps)).toList ++ ' ' ::
        "\\) -prune -o -type f -printf '%m\\t%p\\n' 2>/dev/null".toList) := by
    rw [findFiles, hpaths]
    simp [isOneOfText]
  have htokens : tokens? (findFiles extra).toList =
      some (words (searchExcept (p :: ps)).arguments ++
        [.output "2".toList, .word "/dev/null".toList]) := by
    rw [htext, Shell.tokens?_append hbegin (by decide),
      Shell.tokens?_append (tokens?_isOneOfText p ps) (by decide), hend]
    simp [words, searchExcept]
  rw [command?, htokens, Option.bind_some, Shell.ofTokens?_words_append, hpaths]
  simp [Command.ofTokens?, searchExcept]

theorem command?_remoteCommand {session : SshSession} (hsudo : session.options.useSudo)
    (c : String) : command? (session.remoteCommand c) = some ⟨["sudo", "-n", "sh", "-c", c], []⟩ := by
  apply Shell.command?_of_words
  have hbegin : Leads "sudo -n sh -c ".toList (words ["sudo", "-n", "sh", "-c"]) :=
    .words (s := "sudo -n sh -c".toList) (b := ' ') (by decide) (by decide)
  simpa [SshSession.remoteCommand, hsudo, words] using hbegin.tokens?_shellQuoted .nothing c

/-- A quoted text is one word and the text itself, wherever words can stand. So the search for files
passes over exactly the trees it is given, and `sudo` starts a shell with exactly the command that it
is given; the search reads the same there. -/
theorem quoted_words_exact (session : SshSession) (hsudo : session.options.useSudo) :
    (∀ (s : String) (before after : List Char) (ts us : List Token),
      Leads before ts → Follows after us →
        tokens? (before ++ (shellQuoted s).toList ++ after) =
          some (ts ++ .word s.toList :: us)) ∧
    (∀ extra : List String,
      command? (findFiles extra) = some (searchExcept (excludedPaths ++ extra))) ∧
    (∀ c : String,
      command? (session.remoteCommand c) = some ⟨["sudo", "-n", "sh", "-c", c], []⟩) ∧
    ∀ extra : List String,
      (command? (session.remoteCommand (findFiles extra))).bind underSudo? =
        some (searchExcept (excludedPaths ++ extra)) := by
  refine ⟨fun s before after ts us hbefore hafter => hbefore.tokens?_shellQuoted hafter s,
    command?_findFiles, command?_remoteCommand hsudo, fun extra => ?_⟩
  rw [command?_remoteCommand hsudo, Option.bind_some, underSudo?, command?_findFiles]

def underRoot : SshSession := .new "10.0.0.5" { SshOptions.standard with useSudo := true }

theorem quoted_words_exact_hostile :
    underRoot.options.useSudo ∧
    tokens? ("rm -- ".toList ++ (shellQuoted "it's $(reboot)\n\\").toList ++ " \"a b\"".toList) =
      some (words ["rm", "--", "it's $(reboot)\n\\", "a b"]) ∧
    (command? (underRoot.remoteCommand (findFiles ["/srv/a'; reboot; '", ""]))).bind underSudo? =
      some (searchExcept (excludedPaths ++ ["/srv/a'; reboot; '", ""])) := by
  obtain ⟨hword, -, -, hsearch⟩ := quoted_words_exact underRoot rfl
  have hbefore : Leads "rm -- ".toList (words ["rm", "--"]) :=
    .words (s := "rm --".toList) (b := ' ') (by decide) (by decide)
  have hafter : Follows " \"a b\"".toList (words ["a b"]) :=
    .words (b := ' ') (s := "\"a b\"".toList) (by decide) (by decide)
  exact ⟨rfl, hword _ _ _ _ _ hbefore hafter, hsearch _⟩

end FleetPosture.Inventory
