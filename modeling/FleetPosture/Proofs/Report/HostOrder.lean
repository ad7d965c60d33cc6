import FleetPosture.Manifest.Audit
import FleetPosture.Proofs.Report.SharedKeys
import FleetPosture.Proofs.Report.TlsCoverage
import Mathlib.Data.List.Perm.Basic

/-! Reports on the hosts of a snapshot in another order. Where every host has an identity of its own,
what is remembered from one host never decides about another, so all reports but that on shared keys
are the reports on the single hosts one after the other; and the holders of a key are the same hosts
in whichever order they are met. -/

namespace FleetPosture

namespace Report

structure Reordered (r r' : Report) : Prop where
  title : r.title = r'.title
  header : r.header = r'.header
  note : r.note = r'.note
  rows : r.rows.Perm r'.rows

theorem Reordered.isEmpty {r r' : Report} (h : Reordered r r') : r.isEmpty = r'.isEmpty :=
  h.rows.isEmpty_eq

theorem anyRows_reordered {rs rs' : List Report} (h : List.Forall₂ Reordered rs rs') :
    anyRows rs = anyRows rs' := by
  induction h with
  | nil => rfl
  | cons head _ ih =>
    rw [anyRows, List.any_cons, head.isEmpty]
    exact congrArg _ ih

variable {policy : TlsPolicy} {m : Manifest} {s : Snapshot} {hosts : List Host}

section HostByHost

/-- The rows are those of the reports on each host alone. -/
def HostByHost (report : Snapshot → Report) (s : Snapshot) : Prop :=
  (report s).rows = s.hosts.flatMap fun h => (report (s.withHosts [h])).rows

theorem HostByHost.rows_perm {report : Snapshot → Report} (before : HostByHost report s)
    (after : HostByHost report (s.withHosts hosts)) (order : s.hosts.Perm hosts) :
    (report s).rows.Perm (report (s.withHosts hosts)).rows := by
  unfold HostByHost at before after
  rw [before, after]
  exact order.flatMap_right _

theorem keepFirst_of_identities {α κ : Type} [DecidableEq κ] (key : α → κ) (identity : κ → String)
    {f : Host → List α} (own : ∀ h, ∀ x ∈ f h, identity (key x) = h.identity)
    (distinct : (s.hosts.map Host.identity).Nodup) :
    keepFirst key (s.hosts.flatMap f) = s.hosts.flatMap fun h => keepFirst key (f h) := by
  refine keepFirst_flatMap ((List.pairwise_map.1 distinct).imp fun differ x hx y hy same => ?_)
  exact differ ((own _ x hx).symm.trans ((congrArg identity same).trans (own _ y hy)))

theorem hostByHost_rootProcesses (distinct : (s.hosts.map Host.identity).Nodup) :
    HostByHost rootProcesses s := by
  unfold HostByHost rootProcesses rootListeners
  rw [keepFirst_of_identities id Listener.identity ?own distinct]
  case own =>
    intro h l hl
    obtain ⟨_, _, rfl⟩ := List.mem_map.1 hl
    rfl
  simp only [Snapshot.withHosts, List.map_flatMap, List.flatMap_singleton]

theorem hostByHost_tlsViolations (distinct : (s.hosts.map Host.identity).Nodup) :
    HostByHost (tlsViolations policy) s := by
  unfold HostByHost tlsViolations tlsListeners
  rw [keepFirst_of_identities Prod.fst Listener.identity ?own distinct]
  case own =>
    intro h a ha
    obtain ⟨_, _, found⟩ := List.mem_filterMap.1 ha
    obtain ⟨_, _, rfl⟩ := Option.map_eq_some_iff.1 found
    rfl
  simp only [Snapshot.withHosts, List.flatMap_assoc, List.flatMap_singleton]

theorem hostByHost_worldReadableFiles : HostByHost worldReadableFiles s := by
  simp only [HostByHost, worldReadableFiles, Snapshot.withHosts, List.flatMap_singleton]

theorem hostByHost_audit : HostByHost (Manifest.audit m) s := by
  simp only [HostByHost, Manifest.audit, Manifest.ofSnapshot, Snapshot.withHosts,
    List.flatMap_map, List.map_cons, List.map_nil, List.flatMap_singleton]

end HostByHost

theorem duplicateSshKeys_rows_perm (order : s.hosts.Perm hosts) :
    (duplicateSshKeys s).rows.Perm (duplicateSshKeys (s.withHosts hosts)).rows := by
  refine duplicateSshKeys_rows_perm_of_holders fun key identity => ?_
  show (∃ h ∈ s.hosts, _) ↔ ∃ h ∈ hosts, _
  simp only [order.mem_iff]

/-- The reports on a snapshot do not depend on the order of its hosts. -/
theorem reports_of_hosts_perm (distinct : (s.hosts.map Host.identity).Nodup)
    (order : s.hosts.Perm hosts) (policy : TlsPolicy) (m : Manifest) :
    List.Forall₂ Reordered (all policy s) (all policy (s.withHosts hosts)) ∧
      anyRows (all policy s) = anyRows (all policy (s.withHosts hosts)) ∧
      Reordered (m.audit s) (m.audit (s.withHosts hosts)) ∧
      (Manifest.ofSnapshot s).specs.Perm (Manifest.ofSnapshot (s.withHosts hosts)).specs := by
  have distinct' : ((s.withHosts hosts).hosts.map Host.identity).Nodup :=
    (order.map Host.identity).nodup_iff.1 distinct
  have root : Reordered (rootProcesses s) (rootProcesses (s.withHosts hosts)) :=
    ⟨rfl, rfl, rfl, (hostByHost_rootProcesses distinct).rows_perm
      (hostByHost_rootProcesses distinct') order⟩
  have tls : Reordered (tlsViolations policy s) (tlsViolations policy (s.withHosts hosts)) :=
    ⟨rfl, rfl, rfl, (hostByHost_tlsViolations distinct).rows_perm
      (hostByHost_tlsViolations distinct') order⟩
  have files : Reordered (worldReadableFiles s) (worldReadableFiles (s.withHosts hosts)) :=
    ⟨rfl, rfl, rfl, hostByHost_worldReadableFiles.rows_perm hostByHost_worldReadableFiles order⟩
  have keys : Reordered (duplicateSshKeys s) (duplicateSshKeys (s.withHosts hosts)) :=
    ⟨rfl, rfl, rfl, duplicateSshKeys_rows_perm order⟩
  have audits : Reordered (m.audit s) (m.audit (s.withHosts hosts)) :=
    ⟨rfl, rfl, rfl, hostByHost_audit.rows_perm hostByHost_audit order⟩
  have reports : List.Forall₂ Reordered (all policy s) (all policy (s.withHosts hosts)) :=
    .cons root (.cons tls (.cons files (.cons keys .nil)))
  exact ⟨reports, anyRows_reordered reports, audits, order.map _⟩

def keyedRouter (name address : String) : Host :=
  ⟨name, address, [webServer oldTls], [⟨"/etc/passwd", 420⟩], [⟨"ssh-rsa", "AAAA"⟩]⟩

theorem reports_of_hosts_swapped :
    let first := keyedRouter "router/0" "10.0.0.1"
    let second := keyedRouter "router/1" "10.0.0.2"
    let s := namesakes.withHosts [first, second]
    let hosts := [second, first]
    (s.hosts.map Host.identity).Nodup ∧ s.hosts.Perm hosts ∧
      all .standard s ≠ all .standard (s.withHosts hosts) ∧
      List.Forall₂ Reordered (all .standard s) (all .standard (s.withHosts hosts)) := by
  intro first second s hosts
  have distinct : (s.hosts.map Host.identity).Nodup := by decide
  have order : s.hosts.Perm hosts := .swap second first []
  exact ⟨distinct, order, by decide +kernel, (reports_of_hosts_perm distinct order .standard ⟨[]⟩).1⟩

end Report
end FleetPosture
