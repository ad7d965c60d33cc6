import FleetPosture.Proofs.KeepFirst
import FleetPosture.Proofs.Text.Numeral
import FleetPosture.Report.Rules

/-! Which TLS violations the report shows. Ports that agree in the host's identity, the number and
the command stand under one listener, and only the first of them is looked at: nothing is missed
exactly if the others have no version or cipher to report that the first one has not. -/

namespace FleetPosture

namespace TlsPolicy

variable {policy : TlsPolicy} {label : String} {c : AcceptedCipher}

def AllowsVersion (policy : TlsPolicy) (label : String) : Prop :=
  (label, ()) ∈ policy.approvedProtocols.entries

def AllowsCipher (policy : TlsPolicy) (c : AcceptedCipher) : Prop :=
  c.quality = .acceptable ∧ ∀ list, policy.approvedCiphers = some list → (c.name, ()) ∈ list.entries

instance (policy : TlsPolicy) (label : String) : Decidable (policy.AllowsVersion label) :=
  inferInstanceAs (Decidable (_ ∈ _))

theorem has_iff {set : SortedSet} : set.has label ↔ (label, ()) ∈ set.entries := by
  rw [SortedSet.has, List.any_eq_true]
  constructor
  · rintro ⟨⟨x, ⟨⟩⟩, member, same⟩
    obtain rfl := beq_iff_eq.1 same
    exact member
  · exact fun member => ⟨_, member, beq_self_eq_true label⟩

theorem approvesProtocol_iff : policy.approvesProtocol label ↔ policy.AllowsVersion label := has_iff

theorem approvesCipher_iff : policy.approvesCipher c ↔ policy.AllowsCipher c := by
  have acceptable : c.quality.isAcceptable ↔ c.quality = .acceptable := beq_iff_eq
  rw [approvesCipher, Bool.and_eq_true, acceptable, AllowsCipher]
  refine and_congr_right fun _ => ?_
  cases policy.approvedCiphers with
  | none => simp
  | some list => simp [has_iff]

end TlsPolicy

namespace Report


/-- What a row about a port has to say in its last two columns: one row for every cipher that is
not approved, with the version unless that is approved, and one for every version that is not
approved itself though all its ciphers are. -/
inductive Violation (policy : TlsPolicy) (tls : TlsInfo) : String → String → Prop
  | cipher {label : String} {ciphers : List AcceptedCipher} {c : AcceptedCipher}
      (version : (label, ciphers) ∈ tls.ciphers.entries) (offered : c ∈ ciphers)
      (flagged : ¬ policy.AllowsCipher c) :
      Violation policy tls (if policy.AllowsVersion label then "" else label) c.name
  | protocol {label : String} {ciphers : List AcceptedCipher}
      (version : (label, ciphers) ∈ tls.ciphers.entries) (flagged : ¬ policy.AllowsVersion label)
      (approved : ∀ c ∈ ciphers, policy.AllowsCipher c) : Violation policy tls label ""

theorem mem_versionCells_iff {policy : TlsPolicy} {label : String} {ciphers : List AcceptedCipher}
    {cells : String × String} :
    cells ∈ versionCells policy label ciphers ↔
      (∃ c ∈ ciphers, ¬ policy.AllowsCipher c ∧
        cells = (if policy.AllowsVersion label then "" else label, c.name)) ∨
      (¬ policy.AllowsVersion label ∧ (∀ c ∈ ciphers, policy.AllowsCipher c) ∧
        cells = (label, "")) := by
  have flagged (f : AcceptedCipher → String × String) :
      cells ∈ (ciphers.filter fun c => !policy.approvesCipher c).map f ↔
        ∃ c ∈ ciphers, ¬ policy.AllowsCipher c ∧ cells = f c := by
    simp only [List.mem_map, List.mem_filter, Bool.not_eq_true', ← Bool.not_eq_true,
      TlsPolicy.approvesCipher_iff, and_assoc, @eq_comm _ cells]
  have none : (ciphers.filter fun c => !policy.approvesCipher c).isEmpty ↔
      ∀ c ∈ ciphers, policy.AllowsCipher c := by
    simp only [List.isEmpty_iff, List.filter_eq_nil_iff, Bool.not_eq_true', Bool.not_eq_false,
      TlsPolicy.approvesCipher_iff]
  unfold versionCells
  dsimp only
  by_cases hp : policy.AllowsVersion label
  · rw [if_pos (TlsPolicy.approvesProtocol_iff.2 hp), flagged]
    simp only [hp, if_true, not_true_eq_false, false_and, or_false]
  · rw [if_neg (mt TlsPolicy.approvesProtocol_iff.1 hp)]
    by_cases hn : ∀ c ∈ ciphers, policy.AllowsCipher c
    -- the version stands alone if there is no cipher to name with it
    · rw [if_pos (none.2 hn), List.mem_singleton]
      constructor
      · exact fun h => .inr ⟨hp, hn, h⟩
      · rintro (⟨c, hc, hf, -⟩ | ⟨-, -, h⟩)
        · exact absurd (hn c hc) hf
        · exact h
    · rw [if_neg fun h => hn (none.1 h), flagged, if_neg hp]
      exact ⟨.inl, fun h => h.elim id fun h => absurd h.2.1 hn⟩

theorem violation_iff {policy : TlsPolicy} {tls : TlsInfo} {protocol cipher : String} :
    Violation policy tls protocol cipher ↔
      ∃ e ∈ tls.ciphers.entries, (protocol, cipher) ∈ versionCells policy e.1 e.2 := by
  simp only [mem_versionCells_iff, Prod.mk.injEq]
  constructor
  · rintro (⟨version, offered, flagged⟩ | ⟨version, flagged, approved⟩)
    · exact ⟨_, version, .inl ⟨_, offered, flagged, rfl, rfl⟩⟩
    · exact ⟨_, version, .inr ⟨flagged, approved, rfl, rfl⟩⟩
  · rintro ⟨e, he, ⟨c, hc, flagged, rfl, rfl⟩ | ⟨flagged, approved, rfl, rfl⟩⟩
    · exact .cipher he hc flagged
    · exact .protocol he flagged approved

def Listener.row (l : Listener) : List String := [l.identity, toString l.number.toNat, l.command]

theorem Listener.row_append_inj {l l' : Listener} {p p' c c' : String} :
    l.row ++ [p, c] = l'.row ++ [p', c'] ↔ l = l' ∧ p = p' ∧ c = c' := by
  constructor
  · intro h
    simp only [row, List.cons_append, List.nil_append, List.cons.injEq, and_true] at h
    obtain ⟨identity, number, command, protocol, cipher⟩ := h
    have number : l.number = l'.number := UInt16.toNat_inj.1 (Text.toString_nat_injective number)
    cases l
    cases l'
    simp_all
  · rintro ⟨rfl, rfl, rfl⟩
    rfl

def annotations (s : Snapshot) : List (Listener × TlsInfo) :=
  s.hosts.flatMap fun h =>
    (h.processes.flatMap fun p =>
      (p.ports.filter (·.state == "LISTEN")).map (p, ·)).filterMap fun (p, port) =>
        (port.tls.filter TlsInfo.presence).map fun tls =>
          (⟨h.identity, port.number, p.commandName⟩, tls)

theorem mem_annotations_iff {s : Snapshot} {a : Listener × TlsInfo} :
    a ∈ annotations s ↔ ∃ h ∈ s.hosts, ∃ p ∈ h.processes, ∃ port ∈ p.ports, port.state = "LISTEN" ∧
      ∃ tls, port.tls = some tls ∧ tls.presence ∧
        a = (⟨h.identity, port.number, p.commandName⟩, tls) := by
  simp only [annotations, List.mem_flatMap, List.mem_filterMap, List.mem_map, List.mem_filter,
    beq_iff_eq, Option.map_eq_some_iff, Option.filter_eq_some_iff]
  constructor
  · rintro ⟨h, hh, -, ⟨p, hp, port, ⟨hport, listening⟩, rfl⟩, tls, ⟨htls, presence⟩, rfl⟩
    exact ⟨h, hh, p, hp, port, hport, listening, tls, htls, presence, rfl⟩
  · rintro ⟨h, hh, p, hp, port, hport, listening, tls, htls, presence, rfl⟩
    exact ⟨h, hh, _, ⟨p, hp, port, ⟨hport, listening⟩, rfl⟩, tls, ⟨htls, presence⟩, rfl⟩

def IsFirst (s : Snapshot) (l : Listener) (tls : TlsInfo) : Prop :=
  (annotations s).find? (fun a => a.1 = l) = some (l, tls)

theorem IsFirst.mem {s : Snapshot} {l : Listener} {tls : TlsInfo} (h : IsFirst s l tls) :
    (l, tls) ∈ annotations s := List.mem_of_find?_eq_some h

theorem IsFirst.unique {s : Snapshot} {l : Listener} {tls tls' : TlsInfo} (h : IsFirst s l tls)
    (h' : IsFirst s l tls') : tls = tls' :=
  (Prod.mk.inj (Option.some.inj (h.symm.trans h'))).2

theorem exists_isFirst {s : Snapshot} {a : Listener × TlsInfo} (ha : a ∈ annotations s) :
    ∃ tls, IsFirst s a.1 tls := by
  cases hf : (annotations s).find? (fun b => b.1 = a.1) with
  | none => exact absurd (List.find?_eq_none.1 hf a ha) (by simp)
  | some b =>
    have hb : b.1 = a.1 := by simpa using List.find?_some hf
    exact ⟨b.2, by rw [IsFirst, hf, ← hb]⟩

theorem mem_tlsListeners_iff {s : Snapshot} {a : Listener × TlsInfo} :
    a ∈ tlsListeners s ↔ IsFirst s a.1 a.2 := mem_keepFirst_iff

theorem mem_tlsViolations_rows_iff {policy : TlsPolicy} {s : Snapshot} {row : List String} :
    row ∈ (tlsViolations policy s).rows ↔
      ∃ l tls, IsFirst s l tls ∧ ∃ protocol cipher, Violation policy tls protocol cipher ∧
        row = l.row ++ [protocol, cipher] := by
  simp only [tlsViolations, List.mem_flatMap, List.mem_map, mem_tlsListeners_iff, Prod.exists,
    violation_iff]
  constructor
  · rintro ⟨l, tls, first, label, ciphers, he, protocol, cipher, hcells, rfl⟩
    exact ⟨l, tls, first, protocol, cipher, ⟨_, _, he, hcells⟩, rfl⟩
  · rintro ⟨l, tls, first, protocol, cipher, ⟨label, ciphers, he, hcells⟩, rfl⟩
    exact ⟨l, tls, first, label, ciphers, he, protocol, cipher, hcells, rfl⟩

theorem row_mem_rows_iff {policy : TlsPolicy} {s : Snapshot} {l : Listener} {tls : TlsInfo}
    (first : IsFirst s l tls) {protocol cipher : String} :
    l.row ++ [protocol, cipher] ∈ (tlsViolations policy s).rows ↔
      Violation policy tls protocol cipher := by
  rw [mem_tlsViolations_rows_iff]
  constructor
  · rintro ⟨l', tls', first', protocol', cipher', hv, heq⟩
    obtain ⟨rfl, rfl, rfl⟩ := Listener.row_append_inj.1 heq
    exact first.unique first' ▸ hv
  · exact fun hv => ⟨l, tls, first, protocol, cipher, hv, rfl⟩

def Reported (policy : TlsPolicy) (rows : List (List String)) (l : Listener) (tls : TlsInfo) :
    Prop :=
  ∀ e ∈ tls.ciphers.entries,
    (¬ policy.AllowsVersion e.1 → ∃ cipher, l.row ++ [e.1, cipher] ∈ rows) ∧
    ∀ c ∈ e.2, ¬ policy.AllowsCipher c → ∃ protocol, l.row ++ [protocol, c.name] ∈ rows

def Subsumed (policy : TlsPolicy) (tls other : TlsInfo) : Prop :=
  ∀ e ∈ tls.ciphers.entries,
    (¬ policy.AllowsVersion e.1 → ∃ cipher, Violation policy other e.1 cipher) ∧
    ∀ c ∈ e.2, ¬ policy.AllowsCipher c → ∃ protocol, Violation policy other protocol c.name

theorem reported_iff_subsumed {policy : TlsPolicy} {s : Snapshot} {l : Listener}
    {tls first : TlsInfo} (hfirst : IsFirst s l first) :
    Reported policy (tlsViolations policy s).rows l tls ↔ Subsumed policy tls first := by
  simp only [Reported, Subsumed, row_mem_rows_iff hfirst]

/-- No violation of any port is missed exactly if of the ports under one listener the first has
those of the others; and every row is justified by a port. -/
theorem tlsViolations_complete_iff (policy : TlsPolicy) (s : Snapshot) :
    ((∀ h ∈ s.hosts, ∀ p ∈ h.processes, ∀ port ∈ p.ports, port.state = "LISTEN" →
        ∀ tls, port.tls = some tls → tls.presence →
          Reported policy (tlsViolations policy s).rows
            ⟨h.identity, port.number, p.commandName⟩ tls) ↔
      ∀ a ∈ annotations s, ∀ first, IsFirst s a.1 first → Subsumed policy a.2 first) ∧
    ∀ row ∈ (tlsViolations policy s).rows, ∃ h ∈ s.hosts, ∃ p ∈ h.processes, ∃ port ∈ p.ports,
      port.state = "LISTEN" ∧ ∃ tls, port.tls = some tls ∧ tls.presence ∧
        ∃ protocol cipher, Violation policy tls protocol cipher ∧
          row = [h.identity, toString port.number.toNat, p.commandName, protocol, cipher] := by
  refine ⟨⟨?_, ?_⟩, ?_⟩
  · intro complete a ha first hfirst
    obtain ⟨h, hh, p, hp, port, hport, listening, tls, htls, presence, rfl⟩ :=
      mem_annotations_iff.1 ha
    exact (reported_iff_subsumed hfirst).1
      (complete h hh p hp port hport listening tls htls presence)
  · intro subsumed h hh p hp port hport listening tls htls presence
    have ha := mem_annotations_iff.2
      ⟨h, hh, p, hp, port, hport, listening, tls, htls, presence, rfl⟩
    obtain ⟨first, hfirst⟩ := exists_isFirst ha
    exact (reported_iff_subsumed hfirst).2 (subsumed _ ha first hfirst)
  · intro row hrow
    obtain ⟨l, tls, first, protocol, cipher, hv, rfl⟩ := mem_tlsViolations_rows_iff.1 hrow
    obtain ⟨h, hh, p, hp, port, hport, listening, tls', htls, presence, heq⟩ :=
      mem_annotations_iff.1 first.mem
    obtain ⟨rfl, rfl⟩ := Prod.mk.inj heq
    exact ⟨h, hh, p, hp, port, hport, listening, tls, htls, presence, protocol, cipher, hv, rfl⟩

def oldTls : TlsInfo :=
  ⟨true, none, .insert .empty "VersionSSL30" [⟨"TLS_RSA_WITH_RC4_128_MD5", .broken⟩], false, none⟩

def newTls : TlsInfo :=
  ⟨true, none, .insert .empty "VersionTLS13" [⟨"TLS_AES_128_GCM_SHA256", .acceptable⟩], false, none⟩

def webServer (tls : TlsInfo) : HostProcess :=
  ⟨"nginx", 10, "vcap", [], [], [⟨.tcp, "0.0.0.0", 443, Port.listenState, some tls⟩]⟩

def namesakes : Snapshot :=
  ⟨⟨1⟩, ⟨2024, 6, 11, 10, 20, 31, 0, 0, by decide⟩,
    [⟨"router/0", "10.0.0.1", [webServer newTls], [], []⟩,
      ⟨"router/0", "10.0.0.2", [webServer oldTls], [], []⟩]⟩

theorem namesakes_incomplete :
    (namesakes.hosts.map fun h => (h.name, h.address)).Nodup ∧
      ¬ ∀ h ∈ namesakes.hosts, ∀ p ∈ h.processes, ∀ port ∈ p.ports, port.state = "LISTEN" →
        ∀ tls, port.tls = some tls → tls.presence →
          Reported .standard (tlsViolations .standard namesakes).rows
            ⟨h.identity, port.number, p.commandName⟩ tls := by
  refine ⟨by decide, fun complete => ?_⟩
  have none : (tlsViolations .standard namesakes).rows = [] := by decide +kernel
  have reported := complete _ (List.mem_cons_of_mem _ List.mem_cons_self) _ List.mem_cons_self _
    List.mem_cons_self rfl oldTls rfl rfl
  obtain ⟨cipher, hrow⟩ := (reported _ List.mem_cons_self).1 (by decide +kernel)
  rw [none] at hrow
  exact List.not_mem_nil hrow

end Report
end FleetPosture
