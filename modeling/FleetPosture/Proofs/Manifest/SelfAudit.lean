import FleetPosture.Manifest.Audit
import FleetPosture.Proofs.Manifest.Lookup
import FleetPosture.Proofs.Manifest.Projection
import Mathlib.Data.List.Nodup

/-! The audit of a snapshot against its own manifest. The lookup by command takes the first process
of that name, so the audit is clean exactly if processes of one name on a host are alike. -/

namespace FleetPosture

def HostProcess.ListensLike (p q : HostProcess) : Prop :=
  p.user = q.user ∧ ∀ n, p.ListensOn n ↔ q.ListensOn n

/-- The listening processes of a host that share a command name are alike. -/
def Host.NamesProcesses (h : Host) : Prop :=
  ∀ p ∈ h.processes, ∀ q ∈ h.processes, p.Listens → q.Listens → p.commandName = q.commandName →
    p.ListensLike q

namespace Manifest

theorem find?_eq_none_iff {processes : List ProcessSpec} {command : String} :
    find? processes command = none ↔ ∀ q ∈ processes, q.command ≠ command := by
  simp only [find?, List.find?_eq_none, beq_iff_eq, ne_eq]

theorem mem_of_find? {processes : List ProcessSpec} {command : String} {q : ProcessSpec}
    (h : find? processes command = some q) : q ∈ processes ∧ q.command = command :=
  ⟨List.mem_of_find?_eq_some h, by simpa only [beq_iff_eq] using List.find?_some h⟩

def Agree (want actual : ProcessSpec) : Prop :=
  want.user = actual.user ∧ ∀ n, n ∈ want.ports ↔ n ∈ actual.ports

namespace Agree

theorem symm {a b : ProcessSpec} (h : Agree a b) : Agree b a := ⟨h.1.symm, fun n => (h.2 n).symm⟩

theorem trans {a b c : ProcessSpec} (h : Agree a b) (h' : Agree b c) : Agree a c :=
  ⟨h.1.trans h'.1, fun n => (h.2 n).trans (h'.2 n)⟩

end Agree

theorem agree_processSpec_iff {p q : HostProcess} :
    Agree (processSpec p) (processSpec q) ↔ p.ListensLike q := by
  simp only [Agree, mem_processSpec_ports]
  exact Iff.rfl

theorem processFindings_eq_nil_iff {expected : HostSpec} {actual want : ProcessSpec}
    (ignored : expected.ignoredPorts = [])
    (hwant : find? expected.processes actual.command = some want) :
    processFindings expected actual = [] ↔ Agree want actual := by
  simp only [processFindings, hwant, ignored, List.contains_nil, Bool.not_false, Bool.and_true,
    List.append_eq_nil_iff, List.map_eq_nil_iff, List.filter_eq_nil_iff, Bool.not_eq_true',
    Bool.not_eq_false, List.contains_iff_mem, ite_eq_left_iff, reduceCtorEq, imp_false, not_not]
  constructor
  · rintro ⟨⟨user, unexpected⟩, missing⟩
    exact ⟨user, fun n => ⟨missing n, unexpected n⟩⟩
  · rintro ⟨user, ports⟩
    exact ⟨⟨user, fun n => (ports n).2⟩, fun n => (ports n).1⟩

theorem missingProcesses_self (spec : HostSpec) : missingProcesses spec spec = [] := by
  simp only [missingProcesses, List.filter_eq_nil_iff, Bool.and_eq_true, not_and, Bool.not_eq_true,
    Option.isNone_eq_false_iff]
  intro q hq _
  rw [Option.isSome_iff_ne_none, ne_eq, find?_eq_none_iff]
  exact fun h => h q hq rfl

theorem hostFindings_eq_nil_iff {m : Manifest} {spec : HostSpec}
    (own : m.specFor? spec.covered = some spec) (ignored : spec.ignoredPorts = []) :
    hostFindings m spec = [] ↔
      ∀ p ∈ spec.processes, ∀ q ∈ spec.processes, p.command = q.command → Agree p q := by
  have first (p : ProcessSpec) (hp : p ∈ spec.processes) :
      ∃ want ∈ spec.processes, want.command = p.command ∧
        find? spec.processes p.command = some want := by
    cases hf : find? spec.processes p.command with
    | none => exact absurd rfl (find?_eq_none_iff.1 hf p hp)
    | some want => exact ⟨want, (mem_of_find? hf).1, (mem_of_find? hf).2, rfl⟩
  simp only [hostFindings, own, missingProcesses_self, List.map_nil, List.append_nil,
    List.flatMap_eq_nil_iff, List.map_eq_nil_iff]
  constructor
  · intro clean p hp q hq hcommand
    -- both are compared with the first process of their name
    obtain ⟨want, _, _, hfind⟩ := first p hp
    have hwp := (processFindings_eq_nil_iff ignored hfind).1 (clean p hp)
    have hwq := (processFindings_eq_nil_iff ignored (hcommand ▸ hfind)).1 (clean q hq)
    exact hwp.symm.trans hwq
  · intro alike p hp
    obtain ⟨want, hwant, hcommand, hfind⟩ := first p hp
    exact (processFindings_eq_nil_iff ignored hfind).2 (alike want hwant p hp hcommand)

theorem agree_observed_iff {h : Host} :
    (∀ p ∈ (observedHost h).processes, ∀ q ∈ (observedHost h).processes,
      p.command = q.command → Agree p q) ↔ h.NamesProcesses := by
  constructor
  · intro alike p hp q hq lp lq hcommand
    exact agree_processSpec_iff.1 (alike _ (mem_observedHost_processes.2 ⟨p, hp, lp, rfl⟩) _
      (mem_observedHost_processes.2 ⟨q, hq, lq, rfl⟩) hcommand)
  · intro alike a ha b hb hcommand
    obtain ⟨p, hp, lp, rfl⟩ := mem_observedHost_processes.1 ha
    obtain ⟨q, hq, lq, rfl⟩ := mem_observedHost_processes.1 hb
    exact agree_processSpec_iff.2 (alike p hp q hq lp lq hcommand)

theorem specFor?_ofSnapshot {s : Snapshot} (distinct : (s.hosts.map Host.identity).Nodup)
    {h : Host} (hh : h ∈ s.hosts) :
    (ofSnapshot s).specFor? h.identity = some (observedHost h) := by
  obtain ⟨before, after, hs⟩ := List.append_of_mem hh
  rw [hs, List.map_append, List.map_cons, List.nodup_middle, List.nodup_cons, List.mem_append,
    not_or] at distinct
  obtain ⟨⟨hbefore, hafter⟩, -⟩ := distinct
  have specs : (ofSnapshot s).specs =
      before.map observedHost ++ observedHost h :: after.map observedHost := by
    rw [ofSnapshot, hs, List.map_append, List.map_cons]
  have named : (observedHost h).covered = h.identity := rfl
  rw [← named]
  refine specFor?_of_named specs ?_ ?_
  · intro r hr hcovered
    obtain ⟨g, hg, rfl⟩ := List.mem_map.1 hr
    exact hbefore (List.mem_map.2 ⟨g, hg, hcovered⟩)
  · intro r hr hcovered
    obtain ⟨g, hg, rfl⟩ := List.mem_map.1 hr
    exact hafter (List.mem_map.2 ⟨g, hg, hcovered⟩)

/-- A snapshot is clean against its own manifest exactly if on every host the listening processes
of one command name have the same user and the same ports. -/
theorem audit_ofSnapshot_eq_nil_iff {s : Snapshot}
    (distinct : (s.hosts.map Host.identity).Nodup) :
    (audit (ofSnapshot s) s).rows = [] ↔ ∀ h ∈ s.hosts, h.NamesProcesses := by
  simp only [audit, List.flatMap_eq_nil_iff, List.map_eq_nil_iff]
  have host {h : Host} (hh : h ∈ s.hosts) :
      hostFindings (ofSnapshot s) (observedHost h) = [] ↔ h.NamesProcesses := by
    rw [← agree_observed_iff]
    exact hostFindings_eq_nil_iff (specFor?_ofSnapshot distinct hh) rfl
  constructor
  · intro clean h hh
    exact (host hh).1 (clean _ (List.mem_map_of_mem hh))
  · intro alike spec hspec
    obtain ⟨h, hh, rfl⟩ := List.mem_map.1 hspec
    exact (host hh).2 (alike h hh)

def webServer (pid : UInt32) (address : String) (port : UInt16) : HostProcess :=
  ⟨"nginx", pid, "vcap", [], [], [⟨.tcp, address, port, Port.listenState, none⟩]⟩

def snapshotOf (hosts : List Host) : Snapshot :=
  ⟨⟨1⟩, ⟨2024, 6, 11, 10, 20, 30, 0, 0, by decide⟩, hosts⟩

theorem audit_ofSnapshot_workers :
    let s := snapshotOf [⟨"web/1", "10.0.0.1",
      [webServer 10 "0.0.0.0" 80, webServer 11 "::" 80], [], []⟩, ⟨"web/10", "10.0.0.2", [], [], []⟩]
    (s.hosts.map Host.identity).Nodup ∧ (∀ h ∈ s.hosts, h.NamesProcesses) ∧
      (audit (ofSnapshot s) s).rows = [] := by
  intro s
  have distinct : (s.hosts.map Host.identity).Nodup := by decide
  have alike : ∀ h ∈ s.hosts, h.NamesProcesses := by
    simp only [s, snapshotOf, Host.NamesProcesses, List.forall_mem_cons, List.not_mem_nil,
      false_implies, implies_true, and_true]
    simp [HostProcess.ListensLike, HostProcess.ListensOn, Port.listenState, webServer]
  exact ⟨distinct, alike, (audit_ofSnapshot_eq_nil_iff distinct).2 alike⟩

/-- Two servers of one name on ports of their own: the second is taken for the first. -/
theorem audit_ofSnapshot_servers :
    let s := snapshotOf [⟨"web/0", "10.0.0.1",
      [webServer 10 "0.0.0.0" 80, webServer 11 "0.0.0.0" 81], [], []⟩]
    (s.hosts.map Host.identity).Nodup ∧
      (audit (ofSnapshot s) s).rows =
        [["web/0", "nginx", "unexpected port 81"],
          ["web/0", "nginx", "expected port 80 not listening"]] := by
  intro s
  exact ⟨by decide, by decide +kernel⟩

end Manifest
end FleetPosture
