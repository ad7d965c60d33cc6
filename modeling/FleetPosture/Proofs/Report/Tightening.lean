import FleetPosture.Proofs.Report.TlsCoverage

/-! The TLS report under a stricter policy. Single rows do not stay: a version that stood alone gets
the names of its ciphers beside it, and ciphers get the name of their version. But what a listener's
two columns name, each taken by itself, stays. -/

namespace FleetPosture

namespace TlsPolicy

structure Tightens (p' p : TlsPolicy) : Prop where
  protocols : p'.approvedProtocols.entries ⊆ p.approvedProtocols.entries
  ciphers : ∀ list, p.approvedCiphers = some list →
    ∃ list', p'.approvedCiphers = some list' ∧ list'.entries ⊆ list.entries

variable {p p' : TlsPolicy}

theorem Tightens.version_unapproved (tightens : p'.Tightens p) {label : String}
    (flagged : ¬ p.AllowsVersion label) : ¬ p'.AllowsVersion label :=
  fun approved => flagged (tightens.protocols approved)

theorem Tightens.cipher_unapproved (tightens : p'.Tightens p) {c : AcceptedCipher}
    (flagged : ¬ p.AllowsCipher c) : ¬ p'.AllowsCipher c := by
  rintro ⟨quality, listed⟩
  refine flagged ⟨quality, fun list ciphers => ?_⟩
  obtain ⟨list', ciphers', narrower⟩ := tightens.ciphers list ciphers
  exact narrower (listed list' ciphers')

end TlsPolicy

namespace Report

variable {policy p p' : TlsPolicy} {s : Snapshot} {l : Listener} {label name : String}

def FlagsVersion (policy : TlsPolicy) (s : Snapshot) (l : Listener) (label : String) : Prop :=
  ∃ tls, IsFirst s l tls ∧ ∃ e ∈ tls.ciphers.entries, e.1 = label ∧ ¬ policy.AllowsVersion label

def FlagsCipher (policy : TlsPolicy) (s : Snapshot) (l : Listener) (name : String) : Prop :=
  ∃ tls, IsFirst s l tls ∧ ∃ e ∈ tls.ciphers.entries, ∃ c ∈ e.2, c.name = name ∧
    ¬ policy.AllowsCipher c

theorem FlagsVersion.of_tightens (tightens : p'.Tightens p) (h : FlagsVersion p s l label) :
    FlagsVersion p' s l label := by
  obtain ⟨tls, first, e, he, rfl, flagged⟩ := h
  exact ⟨tls, first, e, he, rfl, tightens.version_unapproved flagged⟩

theorem FlagsCipher.of_tightens (tightens : p'.Tightens p) (h : FlagsCipher p s l name) :
    FlagsCipher p' s l name := by
  obtain ⟨tls, first, e, he, c, hc, rfl, flagged⟩ := h
  exact ⟨tls, first, e, he, c, hc, rfl, tightens.cipher_unapproved flagged⟩

/-- The label stands in the protocol column of a row about the listener. A blank cell is no label,
unless it is that of a version without a name. -/
def ShowsVersion (policy : TlsPolicy) (s : Snapshot) (l : Listener) (label : String) : Prop :=
  (∃ cipher, l.row ++ [label, cipher] ∈ (tlsViolations policy s).rows) ∧
    (label = "" → FlagsVersion policy s l "")

def ShowsCipher (policy : TlsPolicy) (s : Snapshot) (l : Listener) (name : String) : Prop :=
  (∃ protocol, l.row ++ [protocol, name] ∈ (tlsViolations policy s).rows) ∧
    (name = "" → FlagsCipher policy s l "")

theorem row_mem_rows_iff_exists {protocol cipher : String} :
    l.row ++ [protocol, cipher] ∈ (tlsViolations policy s).rows ↔
      ∃ tls, IsFirst s l tls ∧ Violation policy tls protocol cipher := by
  rw [mem_tlsViolations_rows_iff]
  constructor
  · rintro ⟨l', tls, first, protocol', cipher', violation, same⟩
    obtain ⟨rfl, rfl, rfl⟩ := Listener.row_append_inj.1 same
    exact ⟨tls, first, violation⟩
  · rintro ⟨tls, first, violation⟩
    exact ⟨l, tls, first, protocol, cipher, violation, rfl⟩

theorem flags_of_violation {tls : TlsInfo} {protocol cipher : String} (first : IsFirst s l tls)
    (violation : Violation policy tls protocol cipher) :
    (FlagsVersion policy s l protocol ∨ protocol = "") ∧
      (FlagsCipher policy s l cipher ∨ cipher = "") ∧
      (FlagsVersion policy s l protocol ∨ FlagsCipher policy s l cipher) := by
  cases violation with
  | @cipher label ciphers c version offered flagged =>
    have named : FlagsCipher policy s l c.name := ⟨tls, first, _, version, c, offered, rfl, flagged⟩
    refine ⟨?_, .inl named, .inr named⟩
    split
    · exact .inr rfl
    · next unapproved => exact .inl ⟨tls, first, _, version, rfl, unapproved⟩
  | protocol version flagged _ =>
    have labelled : FlagsVersion policy s l protocol := ⟨tls, first, _, version, rfl, flagged⟩
    exact ⟨.inl labelled, .inr rfl, .inl labelled⟩

theorem FlagsVersion.exists_row (h : FlagsVersion policy s l label) :
    ∃ cipher, l.row ++ [label, cipher] ∈ (tlsViolations policy s).rows := by
  obtain ⟨tls, first, e, version, rfl, flagged⟩ := h
  by_cases approved : ∀ c ∈ e.2, policy.AllowsCipher c
  · have alone : Violation policy tls e.1 "" := .protocol version flagged approved
    exact ⟨"", row_mem_rows_iff_exists.2 ⟨tls, first, alone⟩⟩
  · -- its label is repeated beside each cipher that is not approved
    obtain ⟨c, offered, unapproved⟩ : ∃ c ∈ e.2, ¬ policy.AllowsCipher c := by
      simpa only [Classical.not_forall, exists_prop] using approved
    have beside := Violation.cipher version offered unapproved
    rw [if_neg flagged] at beside
    exact ⟨c.name, row_mem_rows_iff_exists.2 ⟨tls, first, beside⟩⟩

theorem FlagsCipher.exists_row (h : FlagsCipher policy s l name) :
    ∃ protocol, l.row ++ [protocol, name] ∈ (tlsViolations policy s).rows := by
  obtain ⟨tls, first, e, version, c, offered, rfl, flagged⟩ := h
  have violation := Violation.cipher version offered flagged
  exact ⟨_, row_mem_rows_iff_exists.2 ⟨tls, first, violation⟩⟩

theorem showsVersion_iff : ShowsVersion policy s l label ↔ FlagsVersion policy s l label := by
  constructor
  · rintro ⟨⟨cipher, row⟩, unnamed⟩
    obtain ⟨tls, first, violation⟩ := row_mem_rows_iff_exists.1 row
    rcases (flags_of_violation first violation).1 with flags | rfl
    · exact flags
    · exact unnamed rfl
  · intro flags
    exact ⟨flags.exists_row, fun unnamed => unnamed ▸ flags⟩

theorem showsCipher_iff : ShowsCipher policy s l name ↔ FlagsCipher policy s l name := by
  constructor
  · rintro ⟨⟨protocol, row⟩, unnamed⟩
    obtain ⟨tls, first, violation⟩ := row_mem_rows_iff_exists.1 row
    rcases (flags_of_violation first violation).2.1 with flags | rfl
    · exact flags
    · exact unnamed rfl
  · intro flags
    exact ⟨flags.exists_row, fun unnamed => unnamed ▸ flags⟩

theorem exists_row_iff :
    (∃ protocol cipher, l.row ++ [protocol, cipher] ∈ (tlsViolations policy s).rows) ↔
      (∃ label, FlagsVersion policy s l label) ∨ ∃ name, FlagsCipher policy s l name := by
  constructor
  · rintro ⟨protocol, cipher, row⟩
    obtain ⟨tls, first, violation⟩ := row_mem_rows_iff_exists.1 row
    rcases (flags_of_violation first violation).2.2 with version | named
    · exact .inl ⟨protocol, version⟩
    · exact .inr ⟨cipher, named⟩
  · rintro (⟨label, version⟩ | ⟨name, named⟩)
    · exact ⟨label, version.exists_row⟩
    · obtain ⟨protocol, row⟩ := named.exists_row
      exact ⟨protocol, name, row⟩

/-- A stricter policy hides no listener, and for each one no version and no cipher. -/
theorem tlsViolations_of_tightens (tightens : p'.Tightens p) (s : Snapshot) (l : Listener) :
    ((∃ protocol cipher, l.row ++ [protocol, cipher] ∈ (tlsViolations p s).rows) →
        ∃ protocol cipher, l.row ++ [protocol, cipher] ∈ (tlsViolations p' s).rows) ∧
      (∀ label, ShowsVersion p s l label → ShowsVersion p' s l label) ∧
      ∀ name, ShowsCipher p s l name → ShowsCipher p' s l name := by
  refine ⟨?_, fun label => ?_, fun name => ?_⟩
  · rw [exists_row_iff, exists_row_iff]
    rintro (⟨label, version⟩ | ⟨name, named⟩)
    · exact .inl ⟨label, version.of_tightens tightens⟩
    · exact .inr ⟨name, named.of_tightens tightens⟩
  · rw [showsVersion_iff, showsVersion_iff]
    exact .of_tightens tightens
  · rw [showsCipher_iff, showsCipher_iff]
    exact .of_tightens tightens

def agingTls : TlsInfo :=
  let old := [⟨"TLS_ECDHE_RSA_WITH_AES_128_CBC_SHA", .acceptable⟩]
  let current := [⟨"TLS_RSA_WITH_AES_128_CBC_SHA", .weak⟩]
  let ciphers := (SortedMap.empty.insert "VersionTLS10" old).insert "VersionTLS12" current
  ⟨true, none, ciphers, false, none⟩

def agingServer : Snapshot :=
  { namesakes with hosts := [⟨"web/0", "10.0.0.1", [webServer agingTls], [], []⟩] }

def strictPolicy : TlsPolicy :=
  ⟨.ofTexts ["VersionTLS13"], some (.ofTexts ["TLS_AES_128_GCM_SHA256"])⟩

theorem tlsViolations_of_tightens_aging :
    let l : Listener := ⟨"web/0", 443, "nginx"⟩
    strictPolicy.Tightens .standard ∧
      (∀ row ∈ (tlsViolations .standard agingServer).rows,
        row ∉ (tlsViolations strictPolicy agingServer).rows) ∧
      ShowsVersion .standard agingServer l "VersionTLS10" ∧
      ShowsCipher .standard agingServer l "TLS_RSA_WITH_AES_128_CBC_SHA" ∧
      ShowsVersion strictPolicy agingServer l "VersionTLS10" ∧
      ShowsCipher strictPolicy agingServer l "TLS_RSA_WITH_AES_128_CBC_SHA" := by
  intro l
  have tightens : strictPolicy.Tightens .standard := by
    refine ⟨?_, fun list none => nomatch none⟩
    have only : strictPolicy.approvedProtocols.entries = [("VersionTLS13", ())] := rfl
    have standard : ("VersionTLS13", ()) ∈ TlsPolicy.standard.approvedProtocols.entries :=
      List.mem_cons_of_mem _ List.mem_cons_self
    rw [only]
    exact List.cons_subset.2 ⟨standard, List.nil_subset _⟩
  have version : ShowsVersion .standard agingServer l "VersionTLS10" :=
    ⟨⟨"", by decide +kernel⟩, fun blank => absurd blank (by decide)⟩
  have named : ShowsCipher .standard agingServer l "TLS_RSA_WITH_AES_128_CBC_SHA" :=
    ⟨⟨"", by decide +kernel⟩, fun blank => absurd blank (by decide)⟩
  obtain ⟨-, versions, ciphers⟩ := tlsViolations_of_tightens tightens agingServer l
  exact ⟨tightens, by decide +kernel, version, named, versions _ version, ciphers _ named⟩

end Report
end FleetPosture
