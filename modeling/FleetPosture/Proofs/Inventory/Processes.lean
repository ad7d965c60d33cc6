import FleetPosture.Proofs.Inventory
import FleetPosture.Proofs.ProcessTable
import Mathlib.Data.List.Perm.Basic

/-! The processes of an inventory are those of the table with the sockets of the listing, each socket
with the first process that has its number. None is lost, none is there twice, and a socket of a process
that is not in the table is with nobody. -/

namespace FleetPosture.Inventory

open Program
open Socket (Entry)

section Attach

variable {es : List Entry} {seen : List UInt32} {ps : List HostProcess}

theorem attachPorts_congr {seen seen' : List UInt32} (h : ∀ pid, pid ∈ seen ↔ pid ∈ seen')
    (ps : List HostProcess) : attachPorts es seen ps = attachPorts es seen' ps := by
  induction ps generalizing seen seen' with
  | nil => rfl
  | cons p ps ih =>
    rw [attachPorts, attachPorts]
    by_cases hp : p.pid ∈ seen
    · rw [if_pos hp, if_pos ((h _).1 hp), ih h]
    · have more (pid : UInt32) : pid ∈ p.pid :: seen ↔ pid ∈ p.pid :: seen' := by
        rw [List.mem_cons, List.mem_cons, h]
      rw [if_neg hp, if_neg (hp ∘ (h _).2), ih more]

def portsAt (es : List Entry) (seen : List UInt32) (pid : UInt32) : List Port :=
  if pid ∈ seen then [] else Socket.portsOf pid es

theorem attachPorts_cons {p : HostProcess} (none : p.ports = []) (seen : List UInt32)
    (ps : List HostProcess) :
    attachPorts es seen (p :: ps) =
      { p with ports := portsAt es seen p.pid } :: attachPorts es (p.pid :: seen) ps := by
  rw [attachPorts, portsAt]
  split
  case isTrue again =>
    have known (pid : UInt32) : pid ∈ seen ↔ pid ∈ p.pid :: seen := by
      rw [List.mem_cons]
      exact ⟨.inr, fun h => h.elim (· ▸ again) id⟩
    rw [attachPorts_congr known, ← none]
  case isFalse first => rfl

theorem map_attachPorts (none : ∀ p ∈ ps, p.ports = []) (seen : List UInt32) :
    (attachPorts es seen ps).map ({ · with ports := [] }) = ps := by
  induction ps generalizing seen with
  | nil => rfl
  | cons p ps ih =>
    obtain ⟨hp, hps⟩ := List.forall_mem_cons.1 none
    rw [attachPorts_cons hp, List.map_cons, ih hps, ← hp]

theorem ports_of_attachPorts (none : ∀ p ∈ ps, p.ports = []) {front back : List HostProcess}
    {p : HostProcess} (h : attachPorts es seen ps = front ++ p :: back) :
    p.ports = portsAt es (front.map (·.pid) ++ seen) p.pid := by
  induction ps generalizing seen front with
  | nil => exact absurd h.symm (List.append_ne_nil_of_right_ne_nil _ (List.cons_ne_nil _ _))
  | cons q ps ih =>
    obtain ⟨hq, hps⟩ := List.forall_mem_cons.1 none
    rw [attachPorts_cons hq] at h
    cases front with
    | nil =>
      obtain ⟨rfl, -⟩ := List.cons.inj h
      rfl
    | cons f front =>
      obtain ⟨rfl, later⟩ := List.cons.inj h
      rw [ih hps later, portsAt, portsAt]
      simp only [List.map_cons, List.cons_append, List.mem_append, List.mem_cons, or_left_comm]

def owned (es : List Entry) : List (UInt32 × Port) := es.map fun e => (e.pid, e.port)

theorem map_portsAt (es : List Entry) (seen : List UInt32) (pid : UInt32) :
    (portsAt es seen pid).map (pid, ·) = owned (es.filter fun e => e.pid = pid ∧ e.pid ∉ seen) := by
  unfold portsAt owned
  split
  case isTrue again =>
    have nobody : es.filter (fun e => e.pid = pid ∧ e.pid ∉ seen) = [] :=
      List.filter_eq_nil_iff.2 fun e _ => by
        rw [decide_eq_true_eq]
        exact fun h => h.2 (h.1 ▸ again)
    rw [nobody]
    rfl
  case isFalse first =>
    have all : es.filter (fun e => e.pid = pid ∧ e.pid ∉ seen) = es.filter (·.pid == pid) :=
      List.filter_congr fun e _ => by
        rw [Bool.eq_iff_iff, decide_eq_true_eq, beq_iff_eq]
        exact and_iff_left_of_imp (· ▸ first)
    rw [all, Socket.portsOf, List.map_map]
    refine List.map_congr_left fun e he => ?_
    have own : e.pid = pid := eq_of_beq (List.mem_filter.1 he).2
    rw [own]
    rfl

theorem filter_perm_cons (es : List Entry) (seen pids : List UInt32) (pid : UInt32) :
    (es.filter (fun e => e.pid = pid ∧ e.pid ∉ seen) ++
        es.filter fun e => e.pid ∈ pids ∧ e.pid ∉ pid :: seen).Perm
      (es.filter fun e => e.pid ∈ pid :: pids ∧ e.pid ∉ seen) := by
  have split := List.filter_append_perm (fun e => decide (e.pid = pid))
    (es.filter fun e => e.pid ∈ pid :: pids ∧ e.pid ∉ seen)
  rw [List.filter_filter, List.filter_filter] at split
  refine (List.Perm.of_eq ?_).trans split
  congr 1
  · refine List.filter_congr fun e _ => ?_
    simp only [List.mem_cons, ← Bool.decide_and, decide_eq_decide]
    tauto
  · refine List.filter_congr fun e _ => ?_
    simp only [List.mem_cons, ← decide_not, ← Bool.decide_and, decide_eq_decide]
    tauto

theorem sockets_attachPorts (es : List Entry) (none : ∀ p ∈ ps, p.ports = [])
    (seen : List UInt32) :
    ((attachPorts es seen ps).flatMap fun p => p.ports.map (p.pid, ·)).Perm
      (owned (es.filter fun e => e.pid ∈ ps.map (·.pid) ∧ e.pid ∉ seen)) := by
  induction ps generalizing seen with
  | nil => simp [attachPorts, owned]
  | cons p ps ih =>
    obtain ⟨hp, hps⟩ := List.forall_mem_cons.1 none
    rw [attachPorts_cons hp, List.flatMap_cons, map_portsAt]
    refine ((ih hps (p.pid :: seen)).append_left _).trans ?_
    rw [owned, owned, ← List.map_append]
    exact (filter_perm_cons es seen (ps.map (·.pid)) p.pid).map _

end Attach

/-- Processes with the sockets of a listing. -/
structure Attached (ps : List HostProcess) (es : List Entry) (found : List HostProcess) : Prop where
  kept : found.map ({ · with ports := [] }) = ps
  /-- The first process with a number has its sockets in the order of the listing, and others have none. -/
  ports : ∀ front p back, found = front ++ p :: back →
    p.ports = if p.pid ∈ front.map (·.pid) then []
      else (es.filter (·.pid == p.pid)).map (·.port)
  /-- The sockets of the processes in the table are there once each, and no others. -/
  sockets : (found.flatMap fun p => p.ports.map (p.pid, ·)).Perm
    (owned (es.filter fun e => e.pid ∈ ps.map (·.pid)))

theorem attached_attachPorts {ps : List HostProcess} (none : ∀ p ∈ ps, p.ports = [])
    (es : List Entry) : Attached ps es (attachPorts es [] ps) where
  kept := map_attachPorts none []
  ports front p back h := by
    have ports := ports_of_attachPorts none h
    rwa [List.append_nil] at ports
  sockets := by
    simpa using sockets_attachPorts es none []

section Calls

variable {calls : List (Call Answer)}

theorem makes_run_bind_ok {α : Type} {activity command : String} {o : Remote.CommandOutput}
    {f : Remote.CommandOutput → Steps α} {result : Except Failure α}
    (goesOn : Makes (f o).run calls result) :
    Makes (run activity command >>= f).run (⟨.run command, .ok o⟩ :: calls) result := by
  have made : Makes (run activity command).run [⟨.run command, .ok o⟩] (.ok o) :=
    makes_map_iff.2 ⟨.ok o, rfl, makes_request_iff.2 rfl⟩
  exact makes_exceptT_bind_ok made goesOn

inductive Lists : List (Call Answer) → List Entry → Prop
  | lsof {l : Remote.CommandOutput} (works : lsofWorked l) :
      Lists [⟨.run lsof, .ok l⟩] (Socket.Lsof.read l.stdout).entries
  | netstat {l n : Remote.CommandOutput} (unusable : lsofWorked l = false) (works : netstatWorked n) :
      Lists [⟨.run lsof, .ok l⟩, ⟨.run netstat, .ok n⟩] (Socket.Netstat.read n.stdout).entries

theorem makes_sockets {es : List Entry} (h : Lists calls es) : Makes sockets.run calls (.ok es) := by
  cases h with
  | lsof works =>
    refine makes_run_bind_ok ?_
    rw [if_pos works]
    exact .done _
  | netstat unusable works =>
    refine makes_run_bind_ok ?_
    rw [if_neg (by simp [unusable])]
    refine makes_run_bind_ok ?_
    rw [if_pos works]
    exact .done _

/-- If the table of processes and a listing of sockets are had, the processes are found with their
sockets. -/
theorem processes_attached {table : Remote.CommandOutput} {es : List Entry} (success : table.isSuccess)
    (listed : Lists calls es) :
    ∃ found, (∀ result, Makes processes.run (⟨.run processTable, .ok table⟩ :: calls) result ↔
        result = .ok found) ∧
      Attached (ProcessTable.read table.stdout) es found := by
  refine ⟨attachPorts es [] (ProcessTable.read table.stdout), ?_,
    attached_attachPorts (fun p hp => ProcessTable.ports_of_mem_read hp) es⟩
  have made : Makes processes.run (⟨.run processTable, .ok table⟩ :: calls)
      (.ok (attachPorts es [] (ProcessTable.read table.stdout))) := by
    refine makes_run_bind_ok ?_
    rw [if_neg (by simp [success])]
    rw [← List.append_nil calls]
    exact makes_exceptT_bind_ok (makes_sockets listed) (.done _)
  exact fun result => ⟨fun other => other.value_eq made, fun same => same ▸ made⟩

def workers : Remote.CommandOutput :=
  ⟨"100\troot\tnginx\t\t\n200\tvcap\tredis\t\t\n100\troot\tnginx\t\t\n", "", 0⟩

def lsofMissing : Remote.CommandOutput := ⟨"", "sh: lsof: not found", notFound⟩

def connections : Remote.CommandOutput :=
  ⟨"tcp 0 0 0.0.0.0:80 0.0.0.0:* LISTEN 100/nginx\ntcp 0 0 0.0.0.0:6379 0.0.0.0:* LISTEN 200/redis\n" ++
    "tcp 0 0 0.0.0.0:22 0.0.0.0:* LISTEN 300/sshd\ntcp 0 0 0.0.0.0:443 0.0.0.0:* LISTEN 100/nginx\n", "", 0⟩

theorem processes_attached_workers :
    workers.isSuccess ∧ lsofWorked lsofMissing = false ∧ netstatWorked connections ∧
      ∃ found, (∀ result, Makes processes.run [⟨.run processTable, .ok workers⟩,
            ⟨.run lsof, .ok lsofMissing⟩, ⟨.run netstat, .ok connections⟩] result ↔
          result = .ok found) ∧
        Attached (ProcessTable.read workers.stdout) (Socket.Netstat.read connections.stdout).entries
          found := by
  have unusable : lsofWorked lsofMissing = false := by decide +kernel
  have works : netstatWorked connections := by decide +kernel
  exact ⟨rfl, unusable, works, processes_attached rfl (.netstat unusable works)⟩

end Calls

end FleetPosture.Inventory
