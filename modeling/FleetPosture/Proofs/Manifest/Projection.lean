import FleetPosture.Manifest.Basic
import Mathlib.Data.List.Forall2
import Mathlib.Data.List.Sort

/-! What a manifest keeps of a snapshot: an entry for every host, and in it the processes that
listen with the numbers of the ports on which they do, each once and in ascending order. -/

namespace FleetPosture

namespace HostProcess

def ListensOn (p : HostProcess) (n : UInt16) : Prop :=
  ∃ port ∈ p.ports, port.state = "LISTEN" ∧ port.number = n

def Listens (p : HostProcess) : Prop := ∃ n, p.ListensOn n

theorem listens_iff {p : HostProcess} : p.Listens ↔ ∃ port ∈ p.ports, port.state = "LISTEN" := by
  constructor
  · rintro ⟨_, port, hport, listening, _⟩
    exact ⟨port, hport, listening⟩
  · rintro ⟨port, hport, listening⟩
    exact ⟨port.number, port, hport, listening, rfl⟩

theorem mem_numbers {p : HostProcess} {n : UInt16} :
    n ∈ p.listeningPorts.map (·.number) ↔ p.ListensOn n := by
  simp only [ListensOn, listeningPorts, Port.isListening, Port.listenState, List.mem_map,
    List.mem_filter, beq_iff_eq, and_assoc]

theorem numbers_eq_nil_iff {p : HostProcess} :
    p.listeningPorts.map (·.number) = [] ↔ ¬ p.Listens := by
  rw [List.eq_nil_iff_forall_not_mem]
  simp only [mem_numbers, Listens, not_exists]

end HostProcess

namespace Manifest

@[simp]
theorem mem_portSet {n : UInt16} {ns : List UInt16} : n ∈ portSet ns ↔ n ∈ ns := by
  rw [portSet, List.mem_eraseDups, List.mem_mergeSort]

theorem portSet_eq_nil_iff {ns : List UInt16} : portSet ns = [] ↔ ns = [] := by
  simp only [List.eq_nil_iff_forall_not_mem, mem_portSet]

theorem pairwise_eraseDups {ns : List UInt16} (sorted : ns.Pairwise (· ≤ ·)) :
    ns.eraseDups.Pairwise (· < ·) := by
  -- in a sorted list the duplicates of a number follow it, so that all that is left is
  -- greater
  induction len : ns.length using Nat.strongRecOn generalizing ns with
  | ind _ ih =>
    cases ns with
    | nil => exact .nil
    | cons n ns =>
      obtain ⟨head, tail⟩ := List.pairwise_cons.1 sorted
      have shorter : (ns.filter fun k => !k == n).length < (n :: ns).length :=
        Nat.lt_succ_of_le (List.length_filter_le _ _)
      rw [List.eraseDups_cons, List.pairwise_cons]
      refine ⟨fun k hk => ?_, ih _ (len ▸ shorter) (tail.filter _) rfl⟩
      obtain ⟨listed, differs⟩ := List.mem_filter.1 (List.mem_eraseDups.1 hk)
      have ne : k ≠ n := by simpa using differs
      exact UInt16.lt_of_le_of_ne (head k listed) ne.symm

theorem pairwise_portSet (ns : List UInt16) : (portSet ns).Pairwise (· < ·) :=
  pairwise_eraseDups (List.pairwise_mergeSort' (· ≤ ·) ns)

def processSpec (p : HostProcess) : ProcessSpec :=
  ⟨p.commandName, p.user, portSet (p.listeningPorts.map (·.number))⟩

theorem mem_processSpec_ports {p : HostProcess} {n : UInt16} :
    n ∈ (processSpec p).ports ↔ p.ListensOn n := by
  rw [processSpec, mem_portSet, HostProcess.mem_numbers]

theorem observedProcess?_eq_some_iff {p : HostProcess} {q : ProcessSpec} :
    observedProcess? p = some q ↔ p.Listens ∧ processSpec p = q := by
  have silent : (processSpec p).ports.isEmpty ↔ ¬ p.Listens := by
    rw [List.isEmpty_iff, processSpec, portSet_eq_nil_iff, HostProcess.numbers_eq_nil_iff]
  change (if (processSpec p).ports.isEmpty then none else some (processSpec p)) = some q ↔ _
  by_cases h : p.Listens
  · rw [if_neg fun e => silent.1 e h]
    exact ⟨fun e => ⟨h, Option.some.inj e⟩, fun e => congrArg some e.2⟩
  · rw [if_pos (silent.2 h)]
    exact ⟨fun e => absurd e (by simp), fun e => absurd e.1 h⟩

theorem observedProcess?_eq_ite (p : HostProcess) :
    observedProcess? p =
      if p.ports.any (·.state == "LISTEN") then some (processSpec p) else none := by
  have listens : p.ports.any (·.state == "LISTEN") ↔ p.Listens := by
    rw [List.any_eq_true, HostProcess.listens_iff]
    simp only [beq_iff_eq]
  ext q
  rw [observedProcess?_eq_some_iff, ← listens]
  split <;> simp_all

theorem mem_observedHost_processes {h : Host} {q : ProcessSpec} :
    q ∈ (observedHost h).processes ↔ ∃ p ∈ h.processes, p.Listens ∧ processSpec p = q := by
  simp only [observedHost, List.mem_filterMap, observedProcess?_eq_some_iff]

theorem observedHost_processes (h : Host) : (observedHost h).processes =
    (h.processes.filter fun p => p.ports.any (·.state == "LISTEN")).map processSpec := by
  rw [← List.filterMap_eq_map, List.filterMap_filter]
  exact List.filterMap_congr fun p _ => observedProcess?_eq_ite p

/-- The process is entered under its command and user, with each number of its listening ports
once. -/
structure Enters (p : HostProcess) (q : ProcessSpec) : Prop where
  command : q.command = p.commandName
  user : q.user = p.user
  ascending : q.ports.Pairwise (· < ·)
  mem_ports_iff : ∀ n, n ∈ q.ports ↔ ∃ port ∈ p.ports, port.state = "LISTEN" ∧ port.number = n

theorem enters_processSpec (p : HostProcess) : Enters p (processSpec p) where
  command := rfl
  user := rfl
  ascending := pairwise_portSet _
  mem_ports_iff _ := mem_processSpec_ports

structure EntersHost (h : Host) (spec : HostSpec) : Prop where
  covered : spec.covered = h.identity
  ignoredPorts : spec.ignoredPorts = []
  processes : List.Forall₂ Enters (h.processes.filter fun p => p.ports.any (·.state == "LISTEN"))
    spec.processes

theorem entersHost_observedHost (h : Host) : EntersHost h (observedHost h) where
  covered := rfl
  ignoredPorts := rfl
  processes := by
    rw [observedHost_processes, List.forall₂_map_right_iff, List.forall₂_same]
    exact fun p _ => enters_processSpec p

/-- The manifest of a snapshot has an entry for every host, in the order of the hosts, and in it
exactly the processes that listen. -/
theorem ofSnapshot_entersHosts (s : Snapshot) :
    List.Forall₂ EntersHost s.hosts (ofSnapshot s).specs := by
  rw [ofSnapshot, List.forall₂_map_right_iff, List.forall₂_same]
  exact fun h _ => entersHost_observedHost h

example :
    let port (number : UInt16) (address state : String) : Port := ⟨.tcp, address, number, state, none⟩
    let server : HostProcess := ⟨"nginx", 10, "vcap", [], [],
      [port 443 "0.0.0.0" "LISTEN", port 443 "::" "LISTEN", port 80 "*" "LISTEN"]⟩
    let client : HostProcess := ⟨"agent", 11, "vcap", [], [], [port 6868 "*" "ESTABLISHED"]⟩
    observedHost ⟨"web/0", "10.0.0.1", [client, server], [], []⟩ =
      ⟨"web/0", [⟨"nginx", "vcap", [80, 443]⟩], []⟩ := by
  cbv

end Manifest
end FleetPosture
