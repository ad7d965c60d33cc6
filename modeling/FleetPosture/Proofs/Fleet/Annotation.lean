import FleetPosture.Fleet.Scan
import FleetPosture.Proofs.KeepFirst
import FleetPosture.Proofs.Program

/-! The annotation of a host's ports. A number is visited when a TCP port with it is first met, and
from then on its finding stands in a table that only grows; so the result is the host with one finding
for each number, and all else as it was. -/

namespace FleetPosture.Fleet

open Program

section Annotated

def isProbed (p : Port) : Bool := p.state == "LISTEN" && p.protocol == .tcp

def annotatedPort (finding : UInt16 → TlsInfo) (p : Port) : Port :=
  if isProbed p then { p with tls := some (finding p.number) } else p

def annotatedProcess (finding : UInt16 → TlsInfo) (p : HostProcess) : HostProcess :=
  { p with ports := p.ports.map (annotatedPort finding) }

def annotatedHost (finding : UInt16 → TlsInfo) (h : Host) : Host :=
  { h with processes := h.processes.map (annotatedProcess finding) }

def probedNumbers (ports : List Port) : List UInt16 := (ports.filter isProbed).map (·.number)

end Annotated

section Visits

variable {S : Type}

inductive Visit
  | refused (number : UInt16) (cause : Failure)
  | probed (number : UInt16) (e : Endpoint) (found : TlsInfo)

namespace Visit

def number : Visit → UInt16
  | refused number _ => number
  | probed number _ _ => number

def found : Visit → TlsInfo
  | refused _ cause =>
    { presence := false, certificate := none, ciphers := .empty, clientCertificate := false,
      scanError := some (String.intercalate ": " (cause.message :: cause.causes)) }
  | probed _ _ found => found

def entry (v : Visit) : UInt16 × TlsInfo := (v.number, v.found)

def calls (address : String) : Visit → List (Call (Answer (S := S)))
  | refused number cause => [⟨.endpoint address number, .error cause⟩]
  | probed number e found =>
    [⟨.endpoint address number, .ok e⟩, ⟨.probe e, found⟩, ⟨.release e, ()⟩]

end Visit

/-- The calls are those of visits to the numbers that are wanted and not yet in the table, each once
and in their order, and put what was found into the table. -/
def Visited (address : String) (wanted : List UInt16) (seen seen' : Probed)
    (calls : List (Call (Answer (S := S)))) : Prop :=
  ∃ visits : List Visit, calls = visits.flatMap (Visit.calls address) ∧
    seen' = (visits.map Visit.entry).reverse ++ seen ∧
    visits.map Visit.number = keepFirstFrom id (seen.map Prod.fst) wanted

def Agrees (finding : UInt16 → TlsInfo) (seen : Probed) : Prop := ∀ e ∈ seen, finding e.1 = e.2

variable {address : String} {wanted wanted' : List UInt16} {seen seen' seen'' : Probed}
  {calls calls' : List (Call (Answer (S := S)))}

theorem Visited.nil (address : String) (seen : Probed) :
    Visited address [] seen seen ([] : List (Call (Answer (S := S)))) :=
  ⟨[], rfl, rfl, rfl⟩

theorem Visited.append (first : Visited address wanted seen seen' calls)
    (then_ : Visited address wanted' seen' seen'' calls') :
    Visited address (wanted ++ wanted') seen seen'' (calls ++ calls') := by
  obtain ⟨visits, rfl, rfl, numbers⟩ := first
  obtain ⟨visits', rfl, rfl, numbers'⟩ := then_
  have keys : ((visits.map Visit.entry).reverse ++ seen).map Prod.fst =
      (visits.map Visit.number).reverse ++ seen.map Prod.fst := by
    rw [List.map_append, List.map_reverse, List.map_map]
    rfl
  refine ⟨visits ++ visits', by rw [List.flatMap_append], ?_, ?_⟩
  · rw [List.map_append, List.reverse_append, List.append_assoc]
  · rw [List.map_append, numbers', keys, keepFirstFrom_concat, numbers, List.map_id]

theorem Visited.subset (h : Visited address wanted seen seen' calls) : seen ⊆ seen' := by
  obtain ⟨visits, -, rfl, -⟩ := h
  exact List.subset_append_right _ _

theorem Agrees.mono {finding : UInt16 → TlsInfo} (h : Agrees finding seen') (sub : seen ⊆ seen') :
    Agrees finding seen := fun e he => h e (sub he)

theorem exists_agrees (distinct : (seen.map Prod.fst).Nodup) : ∃ finding, Agrees finding seen := by
  refine ⟨fun number => (seen.lookup number).getD .absent, fun e he => ?_⟩
  obtain ⟨front, back, rfl⟩ := List.append_of_mem he
  have first : (front ++ e :: back).lookup e.1 = some e.2 := by
    refine List.lookup_eq_some_iff.2 ⟨front, back, rfl, fun p hp => bne_iff_ne.2 fun same => ?_⟩
    rw [List.map_append, List.map_cons] at distinct
    exact (List.nodup_append.1 distinct).2.2 p.1 (List.mem_map_of_mem hp) e.1 List.mem_cons_self
      same.symm
  show ((front ++ e :: back).lookup e.1).getD _ = e.2
  rw [first]
  rfl

theorem mem_of_lookup {number : UInt16} {tls : TlsInfo} (h : seen.lookup number = some tls) :
    (number, tls) ∈ seen := by
  obtain ⟨front, back, rfl, -⟩ := List.lookup_eq_some_iff.1 h
  exact List.mem_append_right _ List.mem_cons_self

theorem mem_keys_iff_lookup {number : UInt16} :
    number ∈ seen.map Prod.fst ↔ seen.lookup number ≠ none := by
  rw [ne_eq, List.lookup_eq_none_iff]
  simp

end Visits

section Steps

variable {S : Type} {address : String} {seen seen' : Probed} {calls : List (Call (Answer (S := S)))}

theorem makes_ask_iff {r : Request S} {answer : Answer r} :
    Makes (ask r) calls answer ↔ calls = [⟨r, answer⟩] := makes_request_iff

theorem exists_visit_of_probePort {number : UInt16} {found : TlsInfo}
    (h : Makes (probePort address number) calls found) :
    ∃ v : Visit, v.number = number ∧ v.found = found ∧ calls = v.calls address := by
  obtain ⟨first, answer, rest, rfl, asked, goesOn⟩ := makes_bind_iff.1 h
  obtain rfl := makes_ask_iff.1 asked
  cases answer with
  | error cause =>
    obtain ⟨rfl, rfl⟩ := makes_pure_iff.1 goesOn
    exact ⟨.refused number cause, rfl, rfl, rfl⟩
  | ok e =>
    obtain ⟨probing, tls, rest, rfl, probed, goesOn⟩ := makes_bind_iff.1 goesOn
    obtain ⟨releasing, _, rest, rfl, released, ended⟩ := makes_bind_iff.1 goesOn
    obtain ⟨rfl, rfl⟩ := makes_pure_iff.1 ended
    obtain rfl := makes_ask_iff.1 probed
    obtain rfl := makes_ask_iff.1 released
    exact ⟨.probed number e found, rfl, rfl, rfl⟩

def Annotates {α : Type} (address : String) (steps : StateT Probed (Steps S) α) (wanted : List UInt16)
    (value : (UInt16 → TlsInfo) → α) : Prop :=
  ∀ {seen seen' : Probed} {calls : List (Call (Answer (S := S)))} {a : α},
    Makes (steps.run seen) calls (a, seen') → Visited address wanted seen seen' calls ∧
      ∀ finding, Agrees finding seen' → a = value finding

section Port

variable {p : Port}

theorem run_annotatePort_other (other : isProbed p = false) :
    (annotatePort (S := S) address p).run seen = pure (p, seen) := by
  have skipped : (!p.isListening || p.protocol != .tcp) = true := by
    rw [bne, ← Bool.not_and]
    exact congrArg (!·) other
  rw [annotatePort, skipped]
  rfl

theorem run_annotatePort (probed : isProbed p = true) :
    (annotatePort (S := S) address p).run seen =
      match seen.lookup p.number with
      | some tls => pure (p.withTls tls, seen)
      | none => do
        let tls ← probePort address p.number
        return (p.withTls tls, (p.number, tls) :: seen) := by
  have wanted : (!p.isListening || p.protocol != .tcp) = false := by
    rw [bne, ← Bool.not_and]
    exact congrArg (!·) probed
  rw [annotatePort, wanted, if_neg Bool.false_ne_true, StateT.run_bind]
  show (match seen.lookup p.number with
    | some tls => (pure (p.withTls tls) : StateT Probed (Steps S) Port)
    | none => do
      let tls ← probePort (S := S) address p.number
      modify ((p.number, tls) :: ·)
      return p.withTls tls).run seen = _
  cases seen.lookup p.number with
  | some tls => rfl
  | none => simp

theorem annotates_annotatePort (address : String) (p : Port) :
    Annotates (S := S) address (annotatePort address p) (probedNumbers [p]) (annotatedPort · p) := by
  intro seen seen' calls result h
  cases probed : isProbed p with
  | false =>
    have numbers : probedNumbers [p] = [] := by simp [probedNumbers, probed]
    rw [run_annotatePort_other probed] at h
    obtain ⟨rfl, same⟩ := makes_pure_iff.1 h
    obtain ⟨rfl, rfl⟩ := Prod.mk.inj same
    refine ⟨numbers ▸ .nil address _, fun finding _ => ?_⟩
    show result = annotatedPort finding result
    rw [annotatedPort, probed]
    rfl
  | true =>
    have numbers : probedNumbers [p] = [p.number] := by simp [probedNumbers, probed]
    have value (finding : UInt16 → TlsInfo) :
        annotatedPort finding p = p.withTls (finding p.number) := if_pos probed
    rw [run_annotatePort probed] at h
    cases known : seen.lookup p.number with
    | some tls =>
      simp only [known] at h
      obtain ⟨rfl, same⟩ := makes_pure_iff.1 h
      obtain ⟨rfl, rfl⟩ := Prod.mk.inj same
      have old : p.number ∈ seen'.map Prod.fst := by
        rw [mem_keys_iff_lookup, known]
        exact nofun
      refine ⟨⟨[], rfl, rfl, ?_⟩, fun finding agrees => ?_⟩
      · rw [numbers, keepFirstFrom]
        exact (if_pos old).symm
      · show p.withTls tls = annotatedPort finding p
        rw [value, agrees _ (mem_of_lookup known)]
    | none =>
      simp only [known] at h
      obtain ⟨first, tls, rest, rfl, made, ended⟩ := makes_bind_iff.1 h
      obtain ⟨rfl, same⟩ := makes_pure_iff.1 ended
      obtain ⟨rfl, rfl⟩ := Prod.mk.inj same
      obtain ⟨v, number, rfl, rfl⟩ := exists_visit_of_probePort made
      have new : p.number ∉ seen.map Prod.fst := fun old => mem_keys_iff_lookup.1 old known
      refine ⟨⟨[v], ?_, ?_, ?_⟩, fun finding agrees => ?_⟩
      · rw [List.flatMap_singleton, List.append_nil]
      · rw [← number]
        rfl
      · rw [numbers, keepFirstFrom]
        exact (congrArg (List.cons · []) number).trans (if_neg new).symm
      · show p.withTls v.found = annotatedPort finding p
        rw [value, agrees _ List.mem_cons_self]

end Port

theorem Annotates.mapM {α β : Type} {f : α → StateT Probed (Steps S) β} {wanted : α → List UInt16}
    {value : (UInt16 → TlsInfo) → α → β}
    (each : ∀ x, Annotates address (f x) (wanted x) (value · x)) (xs : List α) :
    Annotates address (xs.mapM f) (xs.flatMap wanted) fun finding => xs.map (value finding) := by
  induction xs with
  | nil =>
    intro seen seen' calls result h
    obtain ⟨rfl, same⟩ := makes_pure_iff.1 h
    obtain ⟨rfl, rfl⟩ := Prod.mk.inj same
    exact ⟨.nil address _, fun _ _ => rfl⟩
  | cons x xs ih =>
    intro seen seen' calls result h
    rw [List.mapM_cons] at h
    obtain ⟨first, y, seen₁, rest, rfl, pass, h⟩ := makes_stateT_bind h
    obtain ⟨others, ys, seen₂, last, rfl, passes, h⟩ := makes_stateT_bind h
    obtain ⟨rfl, same⟩ := makes_pure_iff.1 h
    obtain ⟨rfl, rfl⟩ := Prod.mk.inj same
    obtain ⟨visited, gives⟩ := each x pass
    obtain ⟨visited', gives'⟩ := ih passes
    refine ⟨?_, fun finding agrees => ?_⟩
    · rw [List.append_nil, List.flatMap_cons]
      exact visited.append visited'
    · show y :: ys = value finding x :: xs.map (value finding)
      rw [gives finding (agrees.mono visited'.subset), gives' finding agrees]

theorem flatMap_probedNumbers (ports : List Port) :
    ports.flatMap (fun p => probedNumbers [p]) = probedNumbers ports := by
  induction ports with
  | nil => rfl
  | cons p ports ih =>
    rw [List.flatMap_cons, ih, probedNumbers, probedNumbers, probedNumbers, ← List.map_append,
      ← List.filter_append, List.singleton_append]

theorem annotates_annotateProcess (address : String) (p : HostProcess) :
    Annotates (S := S) address (annotateProcess address p) (probedNumbers p.ports)
      (annotatedProcess · p) := by
  intro seen seen' calls result h
  obtain ⟨first, ports, seen₁, rest, rfl, annotated, ended⟩ := makes_stateT_bind h
  obtain ⟨rfl, same⟩ := makes_pure_iff.1 ended
  obtain ⟨rfl, rfl⟩ := Prod.mk.inj same
  obtain ⟨visited, gives⟩ := Annotates.mapM (annotates_annotatePort address) p.ports annotated
  rw [flatMap_probedNumbers] at visited
  rw [List.append_nil]
  refine ⟨visited, fun finding agrees => ?_⟩
  show { p with ports := ports } = annotatedProcess finding p
  rw [gives finding agrees]
  rfl

end Steps

section Host

variable {S : Type} {h : Host}

/-- The visits are one to each number of a TCP port that the host listens on, in the order in which
its ports have them, and the finding about a number is what its visit found. -/
structure Covers (h : Host) (visits : List Visit) (finding : UInt16 → TlsInfo) : Prop where
  numbers : visits.map Visit.number = keepFirst id (h.processes.flatMap fun p => probedNumbers p.ports)
  distinct : (visits.map Visit.number).Nodup
  mem_iff : ∀ number, number ∈ visits.map Visit.number ↔
    ∃ process ∈ h.processes, ∃ port ∈ process.ports,
      port.state = "LISTEN" ∧ port.protocol = .tcp ∧ port.number = number
  found : ∀ v ∈ visits, finding v.number = v.found

theorem mem_probedNumbers_iff {ports : List Port} {number : UInt16} :
    number ∈ probedNumbers ports ↔
      ∃ port ∈ ports, port.state = "LISTEN" ∧ port.protocol = .tcp ∧ port.number = number := by
  simp [probedNumbers, isProbed, and_assoc]

theorem exists_covers_of_annotate {calls : List (Call (Answer (S := S)))} {result : Host}
    (made : Makes (annotate h) calls result) :
    ∃ visits finding, Covers h visits finding ∧ calls = visits.flatMap (Visit.calls h.address) ∧
      result = annotatedHost finding h := by
  obtain ⟨first, ⟨processes, seen⟩, rest, rfl, passes, ended⟩ := makes_bind_iff.1 made
  obtain ⟨rfl, rfl⟩ := makes_pure_iff.1 ended
  obtain ⟨⟨visits, rfl, rfl, numbers⟩, gives⟩ :=
    Annotates.mapM (annotates_annotateProcess h.address) h.processes passes
  have distinct : (visits.map Visit.number).Nodup := by
    have kept : (List.map id (visits.map Visit.number)).Nodup :=
      numbers ▸ nodup_map_keepFirst (h.processes.flatMap fun p => probedNumbers p.ports)
    rwa [List.map_id] at kept
  -- no number stands twice in the table, so it is a function of the numbers
  have keys : (((visits.map Visit.entry).reverse ++ []).map Prod.fst).Nodup := by
    rw [List.append_nil, List.map_reverse, List.map_map]
    exact List.pairwise_reverse.2 (distinct.imp Ne.symm)
  obtain ⟨finding, agrees⟩ := exists_agrees keys
  refine ⟨visits, finding, ⟨numbers, distinct, fun number => ?_, fun v hv => ?_⟩,
    List.append_nil _, ?_⟩
  · rw [numbers]
    refine mem_keepFirst_id_iff.trans ?_
    simp only [List.mem_flatMap, mem_probedNumbers_iff]
  · refine agrees v.entry ?_
    rw [List.append_nil, List.mem_reverse]
    exact List.mem_map_of_mem hv
  · show { h with processes := processes } = annotatedHost finding h
    rw [gives finding agrees]
    rfl

/-- Whatever the fleet answers, an annotated host is the host with one finding for each number. -/
theorem annotate_uniform (h : Host) (fleet : World (Answer (S := S)))
    (before : List (Call (Answer (S := S)))) :
    ∃ visits finding, Covers h visits finding ∧
      ((annotate h).run fleet.answer).run before =
        (annotatedHost finding h, before ++ visits.flatMap (Visit.calls h.address)) := by
  obtain ⟨calls, result, run, made⟩ := exists_makes_run fleet (annotate h) before
  obtain ⟨visits, finding, covers, rfl, rfl⟩ := exists_covers_of_annotate made
  exact ⟨visits, finding, covers, run⟩

def shared : Host where
  name := "web/0"
  address := "10.0.0.5"
  processes :=
    [⟨"nginx", 100, "www", [], [], [⟨.tcp, "10.0.0.5", 443, "LISTEN", none⟩,
        ⟨.tcp, "10.0.0.5", 8443, "LISTEN", none⟩, ⟨.tcp, "10.0.0.5", 443, "ESTABLISHED", none⟩]⟩,
      ⟨"haproxy", 200, "www", [], [], [⟨.udp, "10.0.0.5", 8443, "", none⟩,
        ⟨.tcp, "127.0.0.1", 443, "LISTEN", none⟩]⟩]
  files := []
  sshKeys := []

def filtered : World (Answer (S := Unit))
  | _, .endpoint address number =>
    if number = 443 then .ok ⟨address, number⟩
    else .error ⟨"dialling", ["connection refused"]⟩
  | before, .probe _ => { TlsInfo.absent with presence := before.length = 1 }
  | _, .release _ => ()
  | _, .setUp => .ok ()
  | _, .listHosts => .ok []
  | _, .openSession _ _ => .ok ()
  | _, .runCommand _ _ => .error (.of "closed")
  | _, .closeSession _ => ()
  | _, .resolve _ => .ok []
  | _, .scanKeys _ => .ok []
  | _, .cleanUp => ()

theorem annotate_uniform_shared :
    (∃ visits finding, Covers shared visits finding ∧
      ((annotate shared).run filtered.answer).run [] =
        (annotatedHost finding shared, visits.flatMap (Visit.calls shared.address))) ∧
      (((annotate shared).run filtered.answer).run []).1.processes.map
          (fun p => p.ports.map fun port => port.tls.map fun tls => (tls.presence, tls.scanError)) =
        [[some (true, none), some (false, some "dialling: connection refused"), none],
          [none, some (true, none)]] :=
  ⟨annotate_uniform shared filtered [], by decide +kernel⟩

end Host

end FleetPosture.Fleet
