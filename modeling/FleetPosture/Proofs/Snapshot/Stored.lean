import FleetPosture.Proofs.SortedMap
import FleetPosture.Snapshot.Basic
import Mathlib.Data.List.Induction

/-! What a store keeps of a snapshot: all of it but the versions under which no cipher is listed.
A cipher table is built again from its ciphers one by one. -/

namespace FleetPosture

namespace CipherTable

def stored (t : CipherTable) : CipherTable :=
  ⟨t.entries.filter fun e => !e.2.isEmpty, t.sorted.filter _⟩

def listing (t : CipherTable) : List (String × AcceptedCipher) :=
  t.entries.flatMap fun e => e.2.map (e.1, ·)

def add (t : CipherTable) (e : String × AcceptedCipher) : CipherTable :=
  SortedMap.alter t e.1 fun cs => cs.getD [] ++ [e.2]

theorem stored_eq_self {t : CipherTable} (h : ∀ e ∈ t.entries, e.2 ≠ []) : t.stored = t := by
  apply SortedMap.ext_entries
  rw [stored, List.filter_eq_self]
  intro e he
  simpa using h e he

theorem foldl_add_version {t : CipherTable} {v : String} (h : ∀ e ∈ t.entries, e.1 < v)
    (cs : List AcceptedCipher) :
    ((cs.map (v, ·)).foldl add t).entries =
      t.entries ++ [(v, cs)].filter fun e => !e.2.isEmpty := by
  induction cs using List.reverseRecOn with
  | nil => simp
  | append_singleton cs c ih =>
    rw [List.map_append, List.foldl_append, List.map_singleton, List.foldl_cons, List.foldl_nil]
    -- the first cipher makes the entry of its version, and the others go to the entry's end
    by_cases hcs : cs = []
    · subst hcs
      exact SortedMap.entries_alter_of_lt h _
    · have last : ((cs.map (v, ·)).foldl add t).entries = t.entries ++ [(v, cs)] := by
        rw [ih]
        simp [hcs]
      rw [add, SortedMap.entries_alter_of_last last h]
      simp

theorem foldl_add_entries (es : List (String × List AcceptedCipher)) (t : CipherTable)
    (sorted : (t.entries ++ es).Pairwise fun a b => a.1 < b.1) :
    ((es.flatMap fun e => e.2.map (e.1, ·)).foldl add t).entries =
      t.entries ++ es.filter fun e => !e.2.isEmpty := by
  induction es generalizing t with
  | nil => simp
  | cons e es ih =>
    obtain ⟨v, cs⟩ := e
    obtain ⟨ht, hes, above⟩ := List.pairwise_append.1 sorted
    obtain ⟨he, hes⟩ := List.pairwise_cons.1 hes
    have version := foldl_add_version (v := v) (fun e he => above e he _ List.mem_cons_self) cs
    rw [List.flatMap_cons, List.foldl_append, ih, version, List.append_assoc, ← List.filter_append,
      List.singleton_append]
    -- what is stored of a version keeps its place below the versions that follow
    rw [version]
    refine sorted.sublist ?_
    rw [List.append_assoc]
    exact (List.append_sublist_append_left _).2 (List.filter_sublist.append_right es)

theorem foldl_add_listing (t : CipherTable) : t.listing.foldl add .empty = t.stored :=
  SortedMap.ext_entries (foldl_add_entries t.entries .empty t.sorted)

end CipherTable

def TlsInfo.stored (i : TlsInfo) : TlsInfo := { i with ciphers := i.ciphers.stored }

def Port.stored (p : Port) : Port := { p with tls := p.tls.map TlsInfo.stored }

def HostProcess.stored (p : HostProcess) : HostProcess := { p with ports := p.ports.map Port.stored }

def Host.stored (h : Host) : Host := { h with processes := h.processes.map HostProcess.stored }

def Snapshot.stored (s : Snapshot) : Snapshot := { s with hosts := s.hosts.map Host.stored }

def Snapshot.HasNoEmptyVersion (s : Snapshot) : Prop :=
  ∀ h ∈ s.hosts, ∀ p ∈ h.processes, ∀ port ∈ p.ports, ∀ i, port.tls = some i →
    ∀ e ∈ i.ciphers.entries, e.2 ≠ []

theorem map_eq_self {α : Type} {f : α → α} {xs : List α} (h : ∀ x ∈ xs, f x = x) : xs.map f = xs :=
  (List.map_congr_left h).trans (List.map_id xs)

theorem Snapshot.stored_eq_self {s : Snapshot} (h : s.HasNoEmptyVersion) : s.stored = s := by
  have ports : ∀ host ∈ s.hosts, ∀ p ∈ host.processes, ∀ port ∈ p.ports, port.stored = port := by
    intro host hh p hp port hport
    rw [Port.stored]
    cases ht : port.tls with
    | none => rw [Option.map_none, ← ht]
    | some i =>
      have same : i.stored = i := by
        rw [TlsInfo.stored, CipherTable.stored_eq_self (h host hh p hp port hport i ht)]
      rw [Option.map_some, same, ← ht]
  have processes : ∀ host ∈ s.hosts, ∀ p ∈ host.processes, p.stored = p := by
    intro host hh p hp
    rw [HostProcess.stored, map_eq_self (ports host hh p hp)]
  have hosts : ∀ host ∈ s.hosts, host.stored = host := by
    intro host hh
    rw [Host.stored, map_eq_self (processes host hh)]
  rw [Snapshot.stored, map_eq_self hosts]

end FleetPosture
