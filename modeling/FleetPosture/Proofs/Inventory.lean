import FleetPosture.Inventory.Collect
import FleetPosture.Proofs.Program

/-! An inventory runs commands, and after them it may scan for keys: it resolves the host that was
named for that, and then dials its first address at the port that was named. -/

namespace FleetPosture.Inventory

open Program

variable {α β : Type} {calls : List (Call Answer)}

def IsRun (c : Call Answer) : Prop := ∃ command answer, c = ⟨.run command, answer⟩

def OnlyRuns (x : Steps α) : Prop := ∀ calls result, Makes x.run calls result → ∀ c ∈ calls, IsRun c

namespace OnlyRuns

theorem pure (a : α) : OnlyRuns (Pure.pure a) := by
  intro calls result h
  obtain ⟨rfl, -⟩ := makes_pure_iff.1 h
  exact List.forall_mem_nil _

theorem throw (e : Failure) : OnlyRuns (throw e : Steps α) := by
  intro calls result h
  obtain ⟨rfl, -⟩ := makes_pure_iff.1 h
  exact List.forall_mem_nil _

theorem bind {x : Steps α} {f : α → Steps β} (hx : OnlyRuns x) (hf : ∀ a, OnlyRuns (f a)) :
    OnlyRuns (x >>= f) := by
  intro calls result h
  obtain ⟨e, -, made⟩ | ⟨first, a, rest, rfl, made, goesOn⟩ := makes_exceptT_bind h
  · exact hx _ _ made
  · exact List.forall_mem_append.2 ⟨hx _ _ made, hf a _ _ goesOn⟩

end OnlyRuns

theorem onlyRuns_run (activity command : String) : OnlyRuns (run activity command) := by
  intro calls result h
  obtain ⟨answer, -, made⟩ := makes_map_iff.1 h
  obtain rfl := makes_request_iff.1 made
  exact List.forall_mem_singleton.2 ⟨command, answer, rfl⟩

theorem onlyRuns_sockets : OnlyRuns sockets := by
  refine .bind (onlyRuns_run _ _) fun l => ?_
  split
  · exact .pure _
  refine .bind (onlyRuns_run _ _) fun n => ?_
  split
  · exact .pure _
  · exact .throw _

theorem onlyRuns_processes : OnlyRuns processes := by
  refine .bind (onlyRuns_run _ _) fun table => ?_
  split
  · exact .throw _
  · exact .bind onlyRuns_sockets fun _ => .pure _

theorem onlyRuns_files (extraExclusions : List String) : OnlyRuns (files extraExclusions) :=
  .bind (onlyRuns_run _ _) fun _ => .pure _

inductive KeyScan (host : String) (port : UInt16) : List (Call Answer) → Prop
  | none : KeyScan host port []
  | unscanned (answer : Answer (.resolve (Port.bareAddress host))) :
      KeyScan host port [⟨.resolve (Port.bareAddress host), answer⟩]
  | scanned {address : Net.Address} {others : List Net.Address}
      (answer : Answer (.scanKeys ⟨address, port⟩)) :
      KeyScan host port [⟨.resolve (Port.bareAddress host), .ok (address :: others)⟩,
        ⟨.scanKeys ⟨address, port⟩, answer⟩]

theorem makes_resolve {host : String} {result : Except Failure Net.Address}
    (h : Makes (resolve host).run calls result) :
    ∃ answer, calls = [⟨.resolve (Port.bareAddress host), answer⟩] ∧
      ∀ address, result = .ok address → ∃ others, answer = .ok (address :: others) := by
  obtain ⟨e, rfl, asked⟩ | ⟨first, found, rest, rfl, asked, goesOn⟩ := makes_exceptT_bind h
  all_goals
    obtain ⟨answer, told, made⟩ := makes_map_iff.1 asked
    obtain rfl := makes_request_iff.1 made
  · exact ⟨answer, rfl, nofun⟩
  · obtain rfl : answer = .ok found := by
      cases answer with
      | error e => exact absurd told nofun
      | ok a => exact told.symm
    cases found with
    | nil =>
      obtain ⟨rfl, rfl⟩ := makes_pure_iff.1 goesOn
      exact ⟨.ok [], rfl, nofun⟩
    | cons address others =>
      obtain ⟨rfl, rfl⟩ := makes_pure_iff.1 goesOn
      refine ⟨.ok (address :: others), rfl, ?_⟩
      rintro _ ⟨⟩
      exact ⟨others, rfl⟩

theorem keyScan_hostKeys {host : String} {port : UInt16} {result : Except Failure (List HostKey)}
    (h : Makes (hostKeys host port).run calls result) : KeyScan host port calls := by
  obtain ⟨e, -, resolved⟩ | ⟨first, address, rest, rfl, resolved, scanned⟩ := makes_exceptT_bind h
  all_goals obtain ⟨answer, rfl, found⟩ := makes_resolve resolved
  · exact .unscanned answer
  · obtain ⟨others, rfl⟩ := found address rfl
    obtain ⟨keys, -, made⟩ := makes_map_iff.1 scanned
    obtain rfl := makes_request_iff.1 made
    exact .scanned keys

theorem makes_collect {extraExclusions : List String} {name address keyHost : String}
    {keyPort : UInt16} {result : Except Failure Host}
    (h : Makes (collect extraExclusions name address keyHost keyPort).run calls result) :
    ∃ runs keys, calls = runs ++ keys ∧ (∀ c ∈ runs, IsRun c) ∧ KeyScan keyHost keyPort keys ∧
      ∀ host, result = .ok host → host.name = name ∧ host.address = address := by
  obtain ⟨e, rfl, listing⟩ | ⟨first, ps, rest, rfl, listing, h⟩ := makes_exceptT_bind h
  · exact ⟨calls, [], (List.append_nil calls).symm, onlyRuns_processes _ _ listing, .none, nofun⟩
  have runs := onlyRuns_processes _ _ listing
  obtain ⟨e, rfl, listing⟩ | ⟨second, fs, rest, rfl, listing, h⟩ := makes_exceptT_bind h
  all_goals have runs := List.forall_mem_append.2 ⟨runs, onlyRuns_files _ _ _ listing⟩
  · exact ⟨first ++ rest, [], (List.append_nil _).symm, runs, .none, nofun⟩
  obtain ⟨e, rfl, dialled⟩ | ⟨third, keys, last, rfl, dialled, h⟩ := makes_exceptT_bind h
  · exact ⟨first ++ second, rest, (List.append_assoc ..).symm, runs, keyScan_hostKeys dialled, nofun⟩
  · obtain ⟨rfl, rfl⟩ := makes_pure_iff.1 h
    refine ⟨first ++ second, third, by simp, runs, keyScan_hostKeys dialled, ?_⟩
    rintro _ ⟨⟩
    exact ⟨rfl, rfl⟩

end FleetPosture.Inventory
