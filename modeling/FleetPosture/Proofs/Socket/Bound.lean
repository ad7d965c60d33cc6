import FleetPosture.Proofs.Text.Numeral
import FleetPosture.Proofs.Text.Words
import FleetPosture.Socket.Basic
import Mathlib.Data.List.Perm.Basic

/-! Sockets as they are on a host, before a tool lists them. The local end is spelled `host:port`, by
some tools with brackets around a host that has colons of its own, and both spellings are read back;
and the ports of each process tell all that is kept of a listing. -/

namespace FleetPosture.Socket

open Text (Unbroken IsWord OneLine)

/-- A socket that a tool can list so that it is told apart again: its words have no blanks, the host
does not look like the punctuation around it, and there is a state exactly if the protocol has them. -/
structure Bound where
  pid : UInt32
  program : List Char
  protocol : Transport
  sixth : Bool
  host : List Char
  number : UInt16
  state : List Char
  remote : Option (List Char)
  foreign : List Char
  descriptor : Nat
  received : Nat
  unsent : Nat
  measured : Bool
  unbroken_program : Unbroken program := by decide +kernel
  isWord_host : IsWord host := by decide +kernel
  unbracketed : host.head? ≠ some '[' ∧ ']' ∉ host := by decide +kernel
  arrowless : ¬ "->".toList <:+: host := by decide +kernel
  isWord_state : protocol = .tcp → IsWord state := by decide +kernel
  state_eq_nil : protocol = .udp → state = [] := by decide +kernel
  oneLine_remote : ∀ r ∈ remote, OneLine r := by decide +kernel
  isWord_foreign : IsWord foreign := by decide +kernel

namespace Bound

def state? (b : Bound) : Option (List Char) :=
  match b.protocol with
  | .tcp => some b.state
  | .udp => none

theorem getD_state? (b : Bound) : b.state?.getD [] = b.state := by
  unfold state?
  cases hp : b.protocol with
  | tcp => rfl
  | udp => exact (b.state_eq_nil hp).symm

theorem isWord_of_mem_state? (b : Bound) : ∀ s ∈ b.state?, IsWord s := by
  unfold state?
  cases hp : b.protocol with
  | tcp => exact fun s hs => Option.some.inj hs ▸ b.isWord_state hp
  | udp => exact fun s hs => nomatch hs

theorem state?_ne_none (b : Bound) (h : b.protocol = .tcp) : b.state? ≠ none := by
  rw [state?, h]
  exact Option.some_ne_none _

def port (b : Bound) : Port :=
  ⟨b.protocol, String.ofList b.host, b.number, String.ofList b.state, none⟩

def entry (b : Bound) : Entry := ⟨b.pid, String.ofList b.program, b.port⟩

end Bound

section Endpoint

theorem splitEndpoint_of_cut {s host port : List Char} {n : UInt16}
    (cut : cutEndpoint? s = some (host, port)) (nonempty : host ≠ [])
    (number : Text.uint16? port = some n) : splitEndpoint s = .ok (String.ofList host, n) := by
  simp only [splitEndpoint, cut, number, List.isEmpty_iff, nonempty, if_false]

theorem cutEndpoint?_of_head {s : List Char} (h : s.head? ≠ some '[') :
    cutEndpoint? s = Text.cutLast? ':' s := by
  unfold cutEndpoint?
  split
  · exact absurd rfl h
  · rfl

variable {host : List Char}

theorem splitEndpoint_bare (nonempty : host ≠ []) (bare : host.head? ≠ some '[') (n : UInt16) :
    splitEndpoint (host ++ ':' :: Nat.toDigits 10 n.toNat) = .ok (String.ofList host, n) := by
  refine splitEndpoint_of_cut ?_ nonempty (Text.uint16?_toDigits n)
  have head : (host ++ ':' :: Nat.toDigits 10 n.toNat).head? ≠ some '[' := by
    rwa [List.head?_append_of_ne_nil _ nonempty]
  rw [cutEndpoint?_of_head head]
  exact Text.cutLast?_append host (Text.not_mem_toDigits rfl _)

theorem splitEndpoint_inBrackets (nonempty : host ≠ []) (closed : ']' ∉ host) (n : UInt16) :
    splitEndpoint ('[' :: (host ++ ']' :: ':' :: Nat.toDigits 10 n.toNat)) =
      .ok (String.ofList host, n) := by
  refine splitEndpoint_of_cut ?_ nonempty (Text.uint16?_toDigits n)
  simp only [cutEndpoint?, Text.cutFirst?_append closed]
  rfl

end Endpoint

theorem Listing.entries_map_ok (es : List Entry) : Listing.entries (es.map .ok) = es := by
  rw [entries, List.filterMap_map]
  exact List.filterMap_some

section PortsByPid

theorem nodup_eraseDups {α : Type} [DecidableEq α] : ∀ xs : List α, xs.eraseDups.Nodup
  | [] => .nil
  | x :: xs => by
    rw [List.eraseDups_cons, List.nodup_cons]
    refine ⟨fun again => ?_, nodup_eraseDups _⟩
    rw [List.mem_eraseDups, List.mem_filter] at again
    simp at again
termination_by xs => xs.length
decreasing_by exact Nat.lt_succ_of_le (List.length_filter_le _ _)

def ownedBy (pid : UInt32) (bs : List Bound) : List Bound := bs.filter (·.pid == pid)

theorem portsOf_map_entry (pid : UInt32) (bs : List Bound) :
    portsOf pid (bs.map Bound.entry) = (ownedBy pid bs).map Bound.port := by
  rw [portsOf, List.filter_map, List.map_map]
  rfl

theorem mem_pids_iff {es : List Entry} {pid : UInt32} :
    pid ∈ (es.map (·.pid)).eraseDups ↔ portsOf pid es ≠ [] := by
  rw [List.mem_eraseDups, portsOf, ne_eq, List.map_eq_nil_iff, List.filter_eq_nil_iff]
  simp

theorem pairwise_mergeSort_pids (ps : List UInt32) : (ps.mergeSort (· ≤ ·)).Pairwise (· ≤ ·) := by
  have trans (a b c : UInt32) : decide (a ≤ b) → decide (b ≤ c) → decide (a ≤ c) := by
    simpa using UInt32.le_trans
  have total (a b : UInt32) : decide (a ≤ b) || decide (b ≤ a) := by
    simpa using UInt32.le_total a b
  exact (List.pairwise_mergeSort trans total ps).imp of_decide_eq_true

theorem mergeSort_pids {ps qs : List UInt32} (h : ps.Perm qs) :
    ps.mergeSort (· ≤ ·) = qs.mergeSort (· ≤ ·) := by
  have same : (ps.mergeSort (· ≤ ·)).Perm (qs.mergeSort (· ≤ ·)) :=
    ((List.mergeSort_perm _ _).trans h).trans (List.mergeSort_perm _ _).symm
  exact same.eq_of_pairwise (fun a b _ _ => UInt32.le_antisymm) (pairwise_mergeSort_pids ps)
    (pairwise_mergeSort_pids qs)

theorem mem_portsByPid_iff {es : List Entry} {pid : UInt32} {ports : List Port} :
    (pid, ports) ∈ portsByPid es ↔ ports ≠ [] ∧ ports = portsOf pid es := by
  have listed : pid ∈ (es.map (·.pid)).eraseDups.mergeSort (· ≤ ·) ↔ portsOf pid es ≠ [] :=
    (List.mergeSort_perm _ _).mem_iff.trans mem_pids_iff
  rw [portsByPid, List.mem_map]
  constructor
  · rintro ⟨_, member, ⟨⟩⟩
    exact ⟨listed.1 member, rfl⟩
  · rintro ⟨nonempty, rfl⟩
    exact ⟨pid, listed.2 nonempty, rfl⟩

theorem pairwise_portsByPid (es : List Entry) : (portsByPid es).Pairwise (·.1 < ·.1) := by
  have once : ((es.map (·.pid)).eraseDups.mergeSort (· ≤ ·)).Nodup :=
    (List.mergeSort_perm _ _).nodup_iff.2 (nodup_eraseDups _)
  exact List.pairwise_map.2 ((pairwise_mergeSort_pids _).imp₂ (fun _ _ => UInt32.lt_of_le_of_ne) once)

theorem portsByPid_congr {es es' : List Entry} (h : ∀ pid, portsOf pid es = portsOf pid es') :
    portsByPid es = portsByPid es' := by
  have pids : (es.map (·.pid)).eraseDups.Perm (es'.map (·.pid)).eraseDups := by
    rw [List.perm_ext_iff_of_nodup (nodup_eraseDups _) (nodup_eraseDups _)]
    intro pid
    rw [mem_pids_iff, mem_pids_iff, h]
  simp only [portsByPid, mergeSort_pids pids, h]

end PortsByPid

end FleetPosture.Socket
