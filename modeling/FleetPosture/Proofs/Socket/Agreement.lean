import FleetPosture.Proofs.Socket.Lsof
import FleetPosture.Proofs.Socket.Netstat

/-! A host without the one tool is read with the other, and neither tells more of the host's sockets
than the other does. The listing of fields is grouped by process and the table is not, so that the
entries come in two orders; the ports of each process come in one. -/

namespace FleetPosture.Socket

variable {bs : List Bound} {order : List UInt32}

theorem portsByPid_read_fields (once : order.Nodup) (all : ∀ b ∈ bs, b.pid ∈ order) :
    portsByPid (Lsof.read (Lsof.written order bs)).entries = portsByPid (bs.map Bound.entry) := by
  refine portsByPid_congr fun pid => ?_
  rw [Lsof.portsOf_read_written once all, portsOf_map_entry]

/-- Both outputs for the same sockets give the ports by process that the sockets themselves give: each
process with those of its sockets, in the order of the list. -/
theorem portsByPid_fields_eq_table (once : order.Nodup) (all : ∀ b ∈ bs, b.pid ∈ order)
    (w : Netstat.Widths) :
    portsByPid (Lsof.read (Lsof.written order bs)).entries =
        portsByPid (Netstat.read (Netstat.written w bs)).entries ∧
      portsByPid (Netstat.read (Netstat.written w bs)).entries =
        portsByPid (bs.map Bound.entry) ∧
      (portsByPid (bs.map Bound.entry)).Pairwise (·.1 < ·.1) ∧
      ∀ pid ports, (pid, ports) ∈ portsByPid (bs.map Bound.entry) ↔
        ports ≠ [] ∧ ports = (bs.filter (·.pid == pid)).map Bound.port := by
  have table := congrArg portsByPid (Netstat.entries_read_written bs w)
  refine ⟨(portsByPid_read_fields once all).trans table.symm, table, pairwise_portsByPid _,
    fun pid ports => ?_⟩
  rw [mem_portsByPid_iff, portsOf_map_entry, ownedBy]

def jumpbox : List Bound :=
  [{ pid := 812, program := "sshd".toList, protocol := .tcp, sixth := true, host := "::".toList,
     number := 22, state := "LISTEN".toList, remote := none, foreign := ":::*".toList,
     descriptor := 4, received := 0, unsent := 128, measured := true },
   { pid := 601, program := "dhclient/eth0".toList, protocol := .udp, sixth := false,
     host := "0.0.0.0".toList, number := 68, state := [], remote := none,
     foreign := "0.0.0.0:*".toList, descriptor := 6, received := 0, unsent := 0,
     measured := false },
   { pid := 812, program := "sshd:".toList, protocol := .tcp, sixth := true,
     host := "fe80::1%eth0".toList, number := 22, state := "ESTABLISHED".toList,
     remote := some "[fe80::2]:50022".toList, foreign := "fe80::2:50022".toList,
     descriptor := 5, received := 0, unsent := 36, measured := true }]

def jumpboxOrder : List UInt32 := [812, 601]

theorem portsByPid_jumpbox :
    (jumpboxOrder.Nodup ∧ ∀ b ∈ jumpbox, b.pid ∈ jumpboxOrder) ∧
      portsByPid (Lsof.read (Lsof.written jumpboxOrder jumpbox)).entries =
        portsByPid (Netstat.read (Netstat.written .standard jumpbox)).entries ∧
      portsByPid (Netstat.read (Netstat.written .standard jumpbox)).entries =
        portsByPid (jumpbox.map Bound.entry) ∧
      (portsByPid (jumpbox.map Bound.entry)).Pairwise (·.1 < ·.1) ∧
      ∀ pid ports, (pid, ports) ∈ portsByPid (jumpbox.map Bound.entry) ↔
        ports ≠ [] ∧ ports = (jumpbox.filter (·.pid == pid)).map Bound.port := by
  have once : jumpboxOrder.Nodup := by decide
  have all : ∀ b ∈ jumpbox, b.pid ∈ jumpboxOrder := by decide +kernel
  exact ⟨⟨once, all⟩, portsByPid_fields_eq_table once all .standard⟩

end FleetPosture.Socket
