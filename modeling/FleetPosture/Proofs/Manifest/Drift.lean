import FleetPosture.Proofs.Manifest.SelfAudit
import Mathlib.Data.List.Pairwise
import Mathlib.Data.Set.Basic

/-! The audit of a snapshot against the manifest of another as a test for drift. Where the lookups
of hosts by prefix and of processes by command can only find what they look for, there is nothing to
report exactly if every host listens as the host of its identity did. -/

namespace FleetPosture

namespace HostProcess

variable {p q r : HostProcess}

theorem ListensLike.refl (p : HostProcess) : p.ListensLike p := ⟨rfl, fun _ => Iff.rfl⟩

theorem ListensLike.symm (h : p.ListensLike q) : q.ListensLike p :=
  ⟨h.1.symm, fun n => (h.2 n).symm⟩

theorem ListensLike.trans (h : p.ListensLike q) (h' : q.ListensLike r) : p.ListensLike r :=
  ⟨h.1.trans h'.1, fun n => (h.2 n).trans (h'.2 n)⟩

def listener (p : HostProcess) : String × String × Set UInt16 :=
  (p.commandName, p.user, {n | p.ListensOn n})

theorem listener_eq_iff :
    p.listener = q.listener ↔ p.commandName = q.commandName ∧ p.ListensLike q := by
  simp only [listener, Prod.mk.injEq, Set.ext_iff, Set.mem_ofPred_eq, ListensLike]

end HostProcess

namespace Host

variable {g h : Host}

def listeners (h : Host) : Set (String × String × Set UInt16) :=
  {l | ∃ p ∈ h.processes, p.Listens ∧ p.listener = l}

def NamesApart (h : Host) : Prop :=
  h.processes.Pairwise fun p q => p.Listens → q.Listens → p.commandName ≠ q.commandName

theorem NamesApart.namesProcesses (apart : h.NamesApart) : h.NamesProcesses := by
  let Alike (p q : HostProcess) : Prop :=
    p.Listens → q.Listens → p.commandName = q.commandName → p.ListensLike q
  have symm : Std.Symm Alike := ⟨fun p q alike lq lp same => (alike lp lq same.symm).symm⟩
  have pairs : h.processes.Pairwise Alike :=
    apart.imp fun differ lp lq same => absurd same (differ lp lq)
  intro p hp q hq
  exact pairs.forall_of_forall (fun p _ _ _ _ => .refl p) hp hq

end Host

namespace Manifest

variable {g h : Host} {p : HostProcess}

theorem observedHost_covered : (observedHost h).covered = h.identity := rfl

theorem processFindings_observed_eq_nil_iff (alike : g.NamesProcesses) (listens : p.Listens) :
    processFindings (observedHost g) (processSpec p) = [] ↔ p.listener ∈ g.listeners := by
  cases hfind : find? (observedHost g).processes (processSpec p).command with
  | none =>
    have port : ¬ (processSpec p).ports.all ([] : List UInt16).contains := by
      obtain ⟨n, hn⟩ := listens
      rw [List.all_eq_true]
      exact fun all => by simpa using all n (mem_processSpec_ports.2 hn)
    have unexpected : processFindings (observedHost g) (processSpec p) ≠ [] := by
      unfold processFindings
      rw [hfind]
      exact ne_of_eq_of_ne (if_neg port) (List.cons_ne_nil _ _)
    refine iff_of_false unexpected ?_
    rintro ⟨q, hq, lq, same⟩
    exact find?_eq_none_iff.1 hfind _ (mem_observedHost_processes.2 ⟨q, hq, lq, rfl⟩)
      (HostProcess.listener_eq_iff.1 same).1
  | some want =>
    obtain ⟨hwant, command⟩ := mem_of_find? hfind
    obtain ⟨w, hw, lw, rfl⟩ := mem_observedHost_processes.1 hwant
    have command : w.commandName = p.commandName := command
    rw [processFindings_eq_nil_iff rfl hfind, agree_processSpec_iff]
    constructor
    · exact fun same => ⟨w, hw, lw, HostProcess.listener_eq_iff.2 ⟨command, same⟩⟩
    · -- the process found need not be the one that is like `p`, but has its name
      rintro ⟨q, hq, lq, same⟩
      obtain ⟨name, like⟩ := HostProcess.listener_eq_iff.1 same
      exact (alike w hw q hq lw lq (command.trans name.symm)).trans like

theorem missingProcesses_observed_eq_nil_iff :
    missingProcesses (observedHost g) (observedHost h) = [] ↔
      ∀ q ∈ g.processes, q.Listens →
        ∃ p ∈ h.processes, p.Listens ∧ p.commandName = q.commandName := by
  have needed {q : HostProcess} (listens : q.Listens) :
      (!(processSpec q).ports.all ((observedHost g).ignoredPorts.contains ·)) = true := by
    obtain ⟨n, hn⟩ := listens
    rw [Bool.not_eq_true', List.all_eq_false]
    exact ⟨n, mem_processSpec_ports.2 hn, by simp [observedHost]⟩
  have absent {command : String} :
      find? (observedHost h).processes command = none ↔
        ¬ ∃ p ∈ h.processes, p.Listens ∧ p.commandName = command := by
    rw [find?_eq_none_iff]
    constructor
    · rintro others ⟨p, hp, lp, name⟩
      exact others _ (mem_observedHost_processes.2 ⟨p, hp, lp, rfl⟩) name
    · intro nobody q hq name
      obtain ⟨p, hp, lp, rfl⟩ := mem_observedHost_processes.1 hq
      exact nobody ⟨p, hp, lp, name⟩
  simp only [missingProcesses, List.filter_eq_nil_iff, Bool.and_eq_true, not_and,
    Option.isNone_iff_eq_none, absent, not_not]
  constructor
  · intro present q hq lq
    exact present _ (mem_observedHost_processes.2 ⟨q, hq, lq, rfl⟩) (needed lq)
  · intro present want hwant _
    obtain ⟨q, hq, lq, rfl⟩ := mem_observedHost_processes.1 hwant
    exact present q hq lq

theorem hostFindings_observed_eq_nil_iff {m : Manifest} (alike : g.NamesProcesses)
    (expected : m.specFor? h.identity = some (observedHost g)) :
    hostFindings m (observedHost h) = [] ↔ g.listeners = h.listeners := by
  have expected : m.specFor? (observedHost h).covered = some (observedHost g) := expected
  simp only [hostFindings, expected, List.append_eq_nil_iff, List.flatMap_eq_nil_iff,
    List.map_eq_nil_iff, missingProcesses_observed_eq_nil_iff]
  constructor
  · rintro ⟨known, present⟩
    have known (p : HostProcess) (hp : p ∈ h.processes) (lp : p.Listens) :
        p.listener ∈ g.listeners :=
      (processFindings_observed_eq_nil_iff alike lp).1
        (known _ (mem_observedHost_processes.2 ⟨p, hp, lp, rfl⟩))
    refine Set.Subset.antisymm ?_ ?_
    · rintro l ⟨q, hq, lq, rfl⟩
      obtain ⟨p, hp, lp, name⟩ := present q hq lq
      obtain ⟨q', hq', lq', same⟩ := known p hp lp
      -- `q` and `q'` share the name of `p`
      have name' : q'.commandName = q.commandName :=
        (HostProcess.listener_eq_iff.1 same).1.trans name
      have same' := HostProcess.listener_eq_iff.2 ⟨name', alike q' hq' q hq lq' lq name'⟩
      exact ⟨p, hp, lp, same.symm.trans same'⟩
    · rintro l ⟨p, hp, lp, rfl⟩
      exact known p hp lp
  · intro same
    constructor
    · intro spec hspec
      obtain ⟨p, hp, lp, rfl⟩ := mem_observedHost_processes.1 hspec
      exact (processFindings_observed_eq_nil_iff alike lp).2 (same ▸ ⟨p, hp, lp, rfl⟩)
    · intro q hq lq
      have hl : q.listener ∈ h.listeners := same ▸ ⟨q, hq, lq, rfl⟩
      obtain ⟨p, hp, lp, hlistener⟩ := hl
      exact ⟨p, hp, lp, (HostProcess.listener_eq_iff.1 hlistener).1⟩

/-- The audit of one snapshot against the manifest of another is clean exactly if every host listens
as the host of its identity did. -/
theorem audit_ofSnapshot_clean_iff {s t : Snapshot}
    (distinct : (s.hosts.map Host.identity).Nodup)
    (unextended : ∀ g ∈ s.hosts, ∀ h ∈ t.hosts,
      g.identity.toList <+: h.identity.toList → g.identity = h.identity)
    (apart : ∀ g ∈ s.hosts, g.NamesApart) :
    (audit (ofSnapshot s) t).rows = [] ↔
      ∀ h ∈ t.hosts, ∃ g ∈ s.hosts, g.identity = h.identity ∧ g.listeners = h.listeners := by
  have host (h : Host) (hh : h ∈ t.hosts) : hostFindings (ofSnapshot s) (observedHost h) = [] ↔
      ∃ g ∈ s.hosts, g.identity = h.identity ∧ g.listeners = h.listeners := by
    constructor
    · intro clean
      cases hspec : (ofSnapshot s).specFor? h.identity with
      | none =>
        have unlisted : hostFindings (ofSnapshot s) (observedHost h) ≠ [] := by
          simp only [hostFindings, observedHost, hspec, ne_eq, List.cons_ne_nil, not_false_eq_true]
        exact absurd clean unlisted
      | some spec =>
        have counts := specFor?_eq_some_iff.1 hspec
        obtain ⟨g, hg, rfl⟩ := List.mem_map.1 counts.mem
        have covers := HostSpec.covers_iff.1 counts.covers
        rw [observedHost_covered] at covers
        have identity := unextended g hg h hh covers
        exact ⟨g, hg, identity,
          (hostFindings_observed_eq_nil_iff (apart g hg).namesProcesses hspec).1 clean⟩
    · rintro ⟨g, hg, identity, same⟩
      have own := specFor?_ofSnapshot distinct hg
      rw [identity] at own
      exact (hostFindings_observed_eq_nil_iff (apart g hg).namesProcesses own).2 same
  simp only [audit, List.flatMap_eq_nil_iff, List.map_eq_nil_iff, ofSnapshot,
    List.forall_mem_map]
  exact forall₂_congr host

def sshServer (pid : UInt32) (address : String) : HostProcess :=
  ⟨"sshd", pid, "root", [], [], [⟨.tcp, address, 22, Port.listenState, none⟩,
    ⟨.tcp, address, 22, "ESTABLISHED", none⟩]⟩

theorem audit_ofSnapshot_clean_restarted :
    let s := snapshotOf
      [⟨"web/1", "10.0.0.1", [webServer 10 "0.0.0.0" 80, sshServer 11 "*"], [], []⟩,
        ⟨"web/2", "10.0.0.2", [], [], []⟩]
    let t := snapshotOf [⟨"web/1", "10.0.0.1", [sshServer 7 "::", webServer 8 "*" 80], [], []⟩]
    (s.hosts.map Host.identity).Nodup ∧
      (∀ g ∈ s.hosts, ∀ h ∈ t.hosts,
        g.identity.toList <+: h.identity.toList → g.identity = h.identity) ∧
      (∀ g ∈ s.hosts, g.NamesApart) ∧ (audit (ofSnapshot s) t).rows = [] ∧
      ∀ h ∈ t.hosts, ∃ g ∈ s.hosts, g.identity = h.identity ∧ g.listeners = h.listeners := by
  intro s t
  have distinct : (s.hosts.map Host.identity).Nodup := by decide +kernel
  have unextended : ∀ g ∈ s.hosts, ∀ h ∈ t.hosts,
      g.identity.toList <+: h.identity.toList → g.identity = h.identity := by decide +kernel
  have apart : ∀ g ∈ s.hosts, g.NamesApart := by
    simp [s, snapshotOf, Host.NamesApart, webServer, sshServer]
  have clean : (audit (ofSnapshot s) t).rows = [] := by decide +kernel
  exact ⟨distinct, unextended, apart, clean,
    (audit_ofSnapshot_clean_iff distinct unextended apart).1 clean⟩

end Manifest
end FleetPosture
