import FleetPosture.Proofs.Indexed
import FleetPosture.Proofs.KeepFirst
import FleetPosture.Proofs.Net.Network
import FleetPosture.Proofs.Report.TlsCoverage
import FleetPosture.Proofs.Text.Lines
import FleetPosture.Report.Rules

/-! Which privileged processes the report shows as listening beyond their hosts: each listener once,
where it is first met. A port that is not exposed, say one on a loopback address, is never met, so
that it cannot stand for an exposed one of the same number. -/

namespace FleetPosture.Report

structure Place where
  host : Nat
  process : Nat
  port : Nat

def Place.Before (x y : Place) : Prop :=
  x.host < y.host ∨ x.host = y.host ∧ (x.process < y.process ∨
    x.process = y.process ∧ x.port < y.port)

theorem Place.Before.trans {x y z : Place} (h : x.Before y) (h' : y.Before z) : x.Before z := by
  unfold Before at *
  omega

section Loopback

structure InBrackets (address opening host closing : List Char) : Prop where
  whole : address = opening ++ (host ++ closing)
  opens : ∀ c ∈ opening, c = '['
  closes : ∀ c ∈ closing, c = ']'
  first : host.head? ≠ some '['
  last : host.getLast? ≠ some ']'

theorem InBrackets.dropWhile_eq {address opening host closing : List Char}
    (h : InBrackets address opening host closing) :
    address.dropWhile (· == '[') = host ++ closing := by
  rw [h.whole, List.dropWhile_append_of_pos fun c hc => beq_iff_eq.2 (h.opens c hc)]
  cases host with
  | nil =>
    cases closing with
    | nil => rfl
    | cons c closing =>
      obtain rfl : c = ']' := h.closes c List.mem_cons_self
      rfl
  | cons c host =>
    have other : (c == '[') = false := by simpa using h.first
    rw [List.cons_append, List.dropWhile_cons, other, if_neg Bool.false_ne_true]

theorem bareAddress_eq_iff {address host : List Char} :
    Port.bareAddress (String.ofList address) = String.ofList host ↔
      ∃ opening closing, InBrackets address opening host closing := by
  have trimmed : Port.bareAddress (String.ofList address) = String.ofList host ↔
      Text.trimEndWhile (· == ']') (address.dropWhile (· == '[')) = host := by
    rw [Port.bareAddress, String.toList_ofList, String.ofList_inj, Text.trimEndWhile]
  rw [trimmed, Text.trimEndWhile_eq_iff]
  constructor
  · rintro ⟨closing, rest, closes, last⟩
    refine ⟨address.takeWhile (· == '['), closing, ?_, ?_, by simpa using closes, ?_, ?_⟩
    · rw [← rest, List.takeWhile_append_dropWhile]
    · exact fun c hc => by simpa using List.mem_takeWhile_imp hc
    · intro first
      have opening : (address.dropWhile (· == '[')).head? = some '[' := by
        rw [rest, List.head?_append, first, Option.some_or]
      have kept := List.head?_dropWhile_not (· == '[') address
      rw [opening] at kept
      exact absurd kept (by decide)
    · exact fun ended => by simpa using last _ ended
  · rintro ⟨opening, closing, h⟩
    refine ⟨closing, h.dropWhile_eq, by simpa using h.closes, fun c hc => beq_false_of_ne ?_⟩
    rintro rfl
    exact h.last hc

/-- The port's address is, apart from brackets around it, `localhost` in any case, or that of a
loopback interface. -/
def OnLoopback (port : Port) : Prop :=
  ∃ opening host closing, InBrackets port.address.toList opening host closing ∧
    (host.map Char.toLower = "localhost".toList ∨
      ∃ a, Net.Address.parse? (String.ofList host) = some a ∧
        ∃ n ∈ Net.Address.loopback, n.Agrees a)

theorem isLoopback_iff {port : Port} : port.isLoopback ↔ OnLoopback port := by
  have bare (host : List Char) : Port.bareAddress port.address = String.ofList host ↔
      ∃ opening closing, InBrackets port.address.toList opening host closing := by
    rw [← bareAddress_eq_iff, String.ofList_toList]
  have test {host : List Char} (h : Port.bareAddress port.address = String.ofList host) :
      port.isLoopback ↔ host.map Char.toLower = "localhost".toList ∨
        ∃ a, Net.Address.parse? (String.ofList host) = some a ∧
          ∃ n ∈ Net.Address.loopback, n.Agrees a := by
    rw [Port.isLoopback, h, Bool.or_eq_true, beq_iff_eq, ← String.toList_inj, String.toList_ofList,
      String.toList_ofList]
    refine or_congr_right ?_
    cases Net.Address.parse? (String.ofList host) with
    | none => simp
    | some a => simp [Net.Address.isLoopback_iff]
  constructor
  · intro loopback
    have self := (String.ofList_toList (s := Port.bareAddress port.address)).symm
    obtain ⟨opening, closing, h⟩ := (bare _).1 self
    exact ⟨opening, _, closing, h, (test self).1 loopback⟩
  · rintro ⟨opening, host, closing, h, loopback⟩
    exact (test ((bare host).2 ⟨opening, closing, h⟩)).2 loopback

end Loopback

/-- The process runs as root and listens on the port beyond its host. -/
structure IsExposed (p : HostProcess) (port : Port) : Prop where
  privileged : p.user = "root" ∨ p.user = "0"
  listening : port.state = "LISTEN"
  external : ¬ OnLoopback port

def exposes (p : HostProcess) (port : Port) : Bool :=
  port.isListening && (p.isPrivileged && !port.isLoopback)

theorem exposes_iff {p : HostProcess} {port : Port} :
    exposes p port ↔ IsExposed p port := by
  simp only [exposes, Port.isListening, Port.listenState, HostProcess.isPrivileged,
    Bool.and_eq_true, Bool.or_eq_true, beq_iff_eq, Bool.not_eq_true', ← Bool.not_eq_true,
    isLoopback_iff]
  exact ⟨fun ⟨listening, privileged, external⟩ => ⟨privileged, listening, external⟩,
    fun h => ⟨h.listening, h.privileged, h.external⟩⟩

def listener (h : Host) (p : HostProcess) (port : Port) : Listener :=
  ⟨h.identity, port.number, p.commandName⟩

def ExposedAt (s : Snapshot) (x : Place) (l : Listener) : Prop :=
  ∃ h p port, s.hosts[x.host]? = some h ∧ h.processes[x.process]? = some p ∧
    p.ports[x.port]? = some port ∧ IsExposed p port ∧ l = listener h p port

section Places

variable {s : Snapshot} {x : Place} {l : Listener}

def exposures (s : Snapshot) : List (Place × Listener) :=
  s.hosts.zipIdx.flatMap fun h => h.1.processes.zipIdx.flatMap fun p =>
    (p.1.ports.zipIdx.filter fun port => exposes p.1 port.1).map fun port =>
      (⟨h.2, p.2, port.2⟩, listener h.1 p.1 port.1)

theorem mem_exposures_iff : (x, l) ∈ exposures s ↔ ExposedAt s x l := by
  simp only [exposures, List.mem_flatMap, List.mem_map, List.mem_filter, exposes_iff,
    List.mem_zipIdx_iff_getElem?]
  constructor
  · rintro ⟨⟨h, i⟩, hh, ⟨p, j⟩, hp, ⟨port, k⟩, ⟨hport, exposed⟩, same⟩
    obtain ⟨rfl, rfl⟩ := Prod.mk.inj same
    exact ⟨h, p, port, hh, hp, hport, exposed, rfl⟩
  · rintro ⟨h, p, port, hh, hp, hport, exposed, rfl⟩
    exact ⟨(h, x.host), hh, (p, x.process), hp, (port, x.port), ⟨hport, exposed⟩, rfl⟩

theorem pairwise_exposures (s : Snapshot) :
    (exposures s).Pairwise fun a b => a.1.Before b.1 := by
  refine List.pairwise_flatMap.2 ⟨fun h _ => List.pairwise_flatMap.2 ⟨fun p _ => ?_, ?_⟩, ?_⟩
  · refine List.pairwise_map.2 (((pairwise_zipIdx _).filter _).imp fun later => ?_)
    exact .inr ⟨rfl, .inr ⟨rfl, later⟩⟩
  · refine (pairwise_zipIdx _).imp fun later a ha b hb => ?_
    obtain ⟨_, _, rfl⟩ := List.mem_map.1 ha
    obtain ⟨_, _, rfl⟩ := List.mem_map.1 hb
    exact .inr ⟨rfl, .inl later⟩
  · refine (pairwise_zipIdx _).imp fun later a ha b hb => ?_
    obtain ⟨_, _, ha⟩ := List.mem_flatMap.1 ha
    obtain ⟨_, _, hb⟩ := List.mem_flatMap.1 hb
    obtain ⟨_, _, rfl⟩ := List.mem_map.1 ha
    obtain ⟨_, _, rfl⟩ := List.mem_map.1 hb
    exact .inl later

theorem map_exposures (s : Snapshot) : (exposures s).map Prod.snd =
    s.hosts.flatMap fun h => h.processes.flatMap fun p =>
      (p.ports.filter (exposes p)).map (listener h p) := by
  have ports (h : Host) (p : HostProcess) := map_zipIdx_filter (exposes p) (listener h p) p.ports
  have processes (h : Host) := zipIdx_flatMap
    (fun p : HostProcess => (p.ports.filter (exposes p)).map (listener h p)) h.processes
  have hosts := zipIdx_flatMap (fun h : Host => h.processes.flatMap fun p =>
    (p.ports.filter (exposes p)).map (listener h p)) s.hosts
  simp only [exposures, List.map_flatMap, List.map_map, Function.comp_def, ports, processes, hosts]

theorem rootListeners_eq (s : Snapshot) :
    rootListeners s = (keepFirst Prod.snd (exposures s)).map Prod.snd := by
  have kept : keepFirst id ((exposures s).map Prod.snd) =
      (keepFirst Prod.snd (exposures s)).map Prod.snd := keepFirst_map _ _
  rw [rootListeners, ← kept, map_exposures]
  -- what is not exposed is left out before any listener is looked for among earlier ones
  refine congrArg (keepFirst id) ?_
  simp only [listeningPorts, HostProcess.listeningPorts, List.filter_flatMap, List.map_flatMap,
    List.filter_map, List.map_map, List.filter_filter, Function.comp_def, Bool.and_comm]
  rfl

end Places

theorem Listener.row_injective {l l' : Listener} (h : l.row = l'.row) : l = l' :=
  (row_append_inj (p := "") (c := "").1 (congrArg (· ++ ["", ""]) h)).1

theorem nodup_rootListeners (s : Snapshot) : (rootListeners s).Nodup := by
  have distinct : ((keepFirst Prod.snd (exposures s)).map Prod.snd).Nodup := nodup_map_keepFirst _
  rwa [← rootListeners_eq] at distinct

theorem mem_rootListeners_iff {s : Snapshot} {l : Listener} :
    l ∈ rootListeners s ↔ ∃ x, ExposedAt s x l := by
  rw [rootListeners_eq, List.mem_map]
  constructor
  · rintro ⟨⟨x, l⟩, kept, rfl⟩
    exact ⟨x, mem_exposures_iff.1 (mem_of_mem_keepFirst kept)⟩
  · rintro ⟨x, exposed⟩
    show ∃ a ∈ keepFirst Prod.snd (exposures s), a.2 = l
    exact exists_mem_keepFirst (mem_exposures_iff.2 exposed)

theorem pairwise_rootListeners (s : Snapshot) : (rootListeners s).Pairwise fun l l' =>
    ∃ x, ExposedAt s x l ∧ ∀ y, ExposedAt s y l' → x.Before y := by
  rw [rootListeners_eq]
  refine (pairwise_map_keepFirst (fun h h' => h.trans h') (pairwise_exposures s)).imp ?_
  rintro l l' ⟨x, exposed, before⟩
  exact ⟨x, mem_exposures_iff.1 exposed, fun y later => before y (mem_exposures_iff.2 later)⟩

theorem exists_exposedAt_iff {s : Snapshot} {l : Listener} :
    (∃ x, ExposedAt s x l) ↔ ∃ h ∈ s.hosts, ∃ p ∈ h.processes, ∃ port ∈ p.ports,
      IsExposed p port ∧ l = listener h p port := by
  constructor
  · rintro ⟨x, h, p, port, hh, hp, hport, exposed, rfl⟩
    exact ⟨h, List.mem_of_getElem? hh, p, List.mem_of_getElem? hp, port, List.mem_of_getElem? hport,
      exposed, rfl⟩
  · rintro ⟨h, hh, p, hp, port, hport, exposed, rfl⟩
    obtain ⟨i, hi⟩ := List.getElem?_of_mem hh
    obtain ⟨j, hj⟩ := List.getElem?_of_mem hp
    obtain ⟨k, hk⟩ := List.getElem?_of_mem hport
    exact ⟨⟨i, j, k⟩, h, p, port, hi, hj, hk, exposed, rfl⟩

/-- Every exposed listener has one row, and the rows stand in the order in which the listeners are
first met. -/
theorem rootProcesses_exact (s : Snapshot) :
    ∃ listeners : List Listener, (rootProcesses s).rows = listeners.map Listener.row ∧
      (rootProcesses s).rows.Nodup ∧
      (∀ l : Listener, l.row ∈ (rootProcesses s).rows ↔
        ∃ h ∈ s.hosts, h.identity = l.identity ∧ ∃ p ∈ h.processes, p.commandName = l.command ∧
          (p.user = "root" ∨ p.user = "0") ∧ ∃ port ∈ p.ports, port.state = "LISTEN" ∧
            port.number = l.number ∧ ¬ OnLoopback port) ∧
      listeners.Pairwise fun l l' => ∃ x, ExposedAt s x l ∧ ∀ y, ExposedAt s y l' → x.Before y := by
  have rows : (rootProcesses s).rows = (rootListeners s).map Listener.row := rfl
  refine ⟨rootListeners s, rows, ?_, fun l => ?_, pairwise_rootListeners s⟩
  · rw [rows, List.Nodup, List.pairwise_map]
    exact (nodup_rootListeners s).imp fun differ same => differ (Listener.row_injective same)
  · have listed : l.row ∈ (rootProcesses s).rows ↔ l ∈ rootListeners s := by
      rw [rows, List.mem_map]
      refine ⟨fun ⟨l', hl', same⟩ => ?_, fun hl => ⟨l, hl, rfl⟩⟩
      rwa [Listener.row_injective same] at hl'
    rw [listed, mem_rootListeners_iff, exists_exposedAt_iff]
    constructor
    · rintro ⟨h, hh, p, hp, port, hport, exposed, rfl⟩
      exact ⟨h, hh, rfl, p, hp, rfl, exposed.privileged, port, hport, exposed.listening, rfl,
        exposed.external⟩
    · rintro ⟨h, hh, identity, p, hp, command, privileged, port, hport, listening, number, external⟩
      refine ⟨h, hh, p, hp, port, hport, ⟨privileged, listening, external⟩, ?_⟩
      rw [listener, identity, number, command]

end FleetPosture.Report
