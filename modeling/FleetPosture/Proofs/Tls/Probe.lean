import FleetPosture.Proofs.Tls.Flight
import FleetPosture.Proofs.Tls.Survey
import Mathlib.Data.List.Nodup

/-! A probe reports what the server accepted: under every version exactly the suites of the table
that it took, in the table's order, whatever the replies are and however they depend on each
other. -/

namespace FleetPosture.Tls

theorem ProtocolVersion.label_inj {v w : ProtocolVersion} : v.label = w.label ↔ v = w := by
  constructor
  · cases v <;> cases w <;> decide
  · exact congrArg label

theorem ProtocolVersion.mem_probeOrder (v : ProtocolVersion) : v ∈ probeOrder := by
  cases v <;> decide

/-- The versions in the order in which they are tried, each with the suites of the table that it has. -/
def planned : List (ProtocolVersion × CipherSuite) :=
  [ProtocolVersion.tls12, .tls13, .tls11, .tls10, .ssl30].flatMap fun v =>
    (CipherSuite.table.filter fun suite =>
      suite.oldest.wire ≤ v.wire ∧ v.wire ≤ suite.newest.wire).map fun suite => (v, suite)

theorem allOffers_eq : allOffers = planned := by decide +kernel

theorem nodup_allOffers : allOffers.Nodup := by decide +kernel

theorem mem_allOffers_iff {v : ProtocolVersion} {suite : CipherSuite} :
    (v, suite) ∈ allOffers ↔ suite ∈ CipherSuite.table ∧ suite.definedIn v := by
  rw [allOffers, List.mem_flatMap]
  constructor
  · rintro ⟨w, -, h⟩
    obtain ⟨suite', hs, heq⟩ := List.mem_map.1 h
    obtain ⟨rfl, rfl⟩ := Prod.mk.inj heq
    exact List.mem_filter.1 hs
  · intro h
    exact ⟨v, v.mem_probeOrder, List.mem_map.2 ⟨suite, List.mem_filter.2 h, rfl⟩⟩

theorem filter_allOffers (v : ProtocolVersion) :
    allOffers.filter (·.1 = v) = (CipherSuite.offered v).map (v, ·) := by
  cases v <;> decide +kernel

def acceptedSuites (t : List Attempt) (v : ProtocolVersion) : List CipherSuite :=
  CipherSuite.table.filter fun suite => t.any fun a => a.pair = (v, suite) && a.isAccepted

theorem map_filter_of_nodup {α β : Type} [DecidableEq β] {f : α → β} {l : List α}
    (h : (l.map f).Nodup) (p : α → Bool) :
    (l.filter p).map f = (l.map f).filter fun y => l.any fun x => f x = y && p x := by
  rw [List.filter_map]
  congr 1
  apply List.filter_congr
  intro x hx
  rw [Bool.eq_iff_iff]
  simp only [Function.comp_apply, List.any_eq_true, Bool.and_eq_true, decide_eq_true_iff]
  constructor
  · exact fun hp => ⟨x, hx, rfl, hp⟩
  · rintro ⟨y, hy, heq, hp⟩
    exact List.inj_on_of_nodup_map h hy hx heq ▸ hp

theorem acceptedSuites_eq {t : List Attempt} (made : t.map Attempt.pair = allOffers)
    (v : ProtocolVersion) :
    acceptedSuites t v = (CipherSuite.offered v).filter fun suite =>
      t.any fun a => a.pair = (v, suite) && a.isAccepted := by
  rw [CipherSuite.offered, List.filter_filter]
  apply List.filter_congr
  intro suite _
  rw [Bool.eq_iff_iff, Bool.and_eq_true, iff_self_and]
  intro h
  obtain ⟨a, ha, hpair⟩ := List.any_eq_true.1 h
  have offered : (v, suite) ∈ allOffers := by
    rw [← made]
    exact List.mem_map.2 ⟨a, ha, of_decide_eq_true (Bool.and_eq_true_iff.1 hpair).1⟩
  exact (mem_allOffers_iff.1 offered).2

theorem acceptedUnder_label {t : List Attempt} (made : t.map Attempt.pair = allOffers)
    (v : ProtocolVersion) :
    acceptedUnder t v.label = (acceptedSuites t v).map CipherSuite.accepted := by
  -- no pair is attempted twice, so a filter of the attempts is one of the pairs
  have nodup : (t.map Attempt.pair).Nodup := made ▸ nodup_allOffers
  have split (y : ProtocolVersion × CipherSuite) :
      (t.any fun a => a.pair = y && (a.version = v && a.isAccepted)) =
        ((t.any fun a => a.pair = y && a.isAccepted) && y.1 = v) := by
    rw [Bool.eq_iff_iff]
    simp only [List.any_eq_true, Bool.and_eq_true, decide_eq_true_iff]
    constructor
    · rintro ⟨a, ha, rfl, hv, accepted⟩
      exact ⟨⟨a, ha, rfl, accepted⟩, hv⟩
    · rintro ⟨⟨a, ha, rfl, accepted⟩, hv⟩
      exact ⟨a, ha, rfl, hv, accepted⟩
  have pairs : (t.filter fun a => a.version = v && a.isAccepted).map Attempt.pair =
      (acceptedSuites t v).map (v, ·) := by
    rw [map_filter_of_nodup nodup, made, List.filter_congr fun y _ => split y, ← List.filter_filter,
      filter_allOffers, List.filter_map, acceptedSuites_eq made]
    rfl
  have suites := congrArg (List.map fun p => p.2.accepted) pairs
  rw [List.map_map, List.map_map] at suites
  simp only [acceptedUnder, ProtocolVersion.label_inj]
  exact suites

theorem acceptedUnder_of_ne {t : List Attempt} {label : String}
    (h : ∀ v : ProtocolVersion, v.label ≠ label) : acceptedUnder t label = [] := by
  rw [acceptedUnder, List.map_eq_nil_iff, List.filter_eq_nil_iff]
  intro a _
  simp [h a.version]

theorem acceptedUnder_eq_nil_iff {t : List Attempt} :
    (∀ label, acceptedUnder t label = []) ↔ ∀ a ∈ t, ¬ a.isAccepted := by
  simp only [acceptedUnder, List.map_eq_nil_iff, List.filter_eq_nil_iff, Bool.and_eq_true,
    decide_eq_true_iff, not_and]
  exact ⟨fun h a ha => h _ a ha rfl, fun h label a ha _ => h a ha⟩

theorem listed_eq_none_iff {ciphers : List AcceptedCipher} :
    listed ciphers = none ↔ ciphers = [] := by
  rw [listed, ite_eq_left_iff]
  simp

theorem Survey.Reflects.ciphers_eq_nil_iff {s : Survey} {t : List Attempt} (h : s.Reflects t) :
    s.ciphers.entries = [] ↔ ∀ a ∈ t, ¬ a.isAccepted := by
  simp only [SortedMap.entries_eq_nil_iff, h.ciphers, listed_eq_none_iff, acceptedUnder_eq_nil_iff]

theorem Survey.Reflects.ciphers_eq_nil_of_silent {s : Survey} {t : List Attempt} (h : s.Reflects t)
    (silent : ∀ a ∈ t, a.reply = .notTls) : s.ciphers.entries = [] :=
  h.ciphers_eq_nil_iff.2 fun a ha => by simp [Attempt.isAccepted, silent a ha]

/-- The findings about a server at an endpoint, with the attempts that led to them. -/
inductive Findings (server : Server) (endpoint : Net.Endpoint) : List Attempt → TlsInfo → Prop
  | unreachable {t : List Attempt} {v : ProtocolVersion} {suite : CipherSuite}
      {rest : List (ProtocolVersion × CipherSuite)} {e : Net.ConnectError}
      (made : t.map Attempt.pair ++ (v, suite) :: rest = planned) (alive : Alive t)
      (reply : server.reply (offersOf t) (nextOffer t v suite) = .error e) :
      Findings server endpoint t ⟨false, none, .empty, false, some (ProbeError.connect endpoint e).message⟩
  | notTls {t : List Attempt} (made : t.map Attempt.pair = planned.take 3)
      (silent : ∀ a ∈ t, a.reply = .notTls) :
      Findings server endpoint t ⟨false, none, .empty, false, none⟩
  | surveyed {t : List Attempt} {tls : TlsInfo} (made : t.map Attempt.pair = planned)
      (once : (t.map Attempt.pair).Nodup)
      (alive : ∃ a ∈ t.take 3, a.reply ≠ .notTls)
      (ciphers : ∀ v, tls.ciphers.get? v.label = listed
        ((acceptedSuites t v).map fun suite => ⟨suite.name, suite.quality⟩))
      (others : ∀ label, (∀ v : ProtocolVersion, v.label ≠ label) → tls.ciphers.get? label = none)
      (presence : tls.presence ↔ ∃ a ∈ t, a.isAccepted) : Findings server endpoint t tls

section Conclude

variable {readCertificate : Text.Bytes → Option Certificate}

theorem Survey.conclude_presence (s : Survey) (greeting : Except ProbeError Greeting) :
    (s.conclude greeting readCertificate).presence = true := by cases greeting <;> rfl

theorem Survey.conclude_ciphers (s : Survey) (greeting : Except ProbeError Greeting) :
    (s.conclude greeting readCertificate).ciphers = s.ciphers := by cases greeting <;> rfl

end Conclude

theorem Survey.Reflects.surveyed {server : Server} {endpoint : Net.Endpoint} {s : Survey}
    {t : List Attempt} (h : s.Reflects t) (made : t.map Attempt.pair = allOffers) (alive : Alive t)
    {tls : TlsInfo} (ciphers : tls.ciphers = s.ciphers)
    (presence : tls.presence ↔ s.ciphers.entries ≠ []) : Findings server endpoint t tls := by
  have long : 3 ≤ t.length := by
    rw [← t.length_map Attempt.pair, made]
    decide +kernel
  refine .surveyed (made.trans allOffers_eq) (made ▸ nodup_allOffers) (alive long) ?_ ?_ ?_
  · intro v
    rw [ciphers, h.ciphers, acceptedUnder_label made]
    rfl
  · intro label none
    rw [ciphers, h.ciphers, acceptedUnder_of_ne none, listed_eq_none_iff]
  · rw [presence, ne_eq, h.ciphers_eq_nil_iff]
    simp

theorem findings_probeServer (host : String) (endpoint : Net.Endpoint) (server : Server) :
    ∃ t, Answered server t ∧ (probeServer host endpoint server).offers = offersOf t ∧
      Findings server endpoint t (probeServer host endpoint server).tls := by
  obtain ⟨t, answered, reflects, outcome⟩ :=
    exists_outcome server allOffers .nil .start Alive.nil
  rw [probeServer]
  generalize survey server allOffers .start = result at reflects outcome
  obtain ⟨s, ending⟩ := result
  rw [List.map_nil, List.nil_append] at outcome
  refine ⟨t, answered, ?_⟩
  cases outcome with
  | failed made alive reply => exact ⟨reflects.offers, .unreachable (made.trans allOffers_eq) alive reply⟩
  | givenUp made three silent =>
    have none : s.ciphers.entries = [] := reflects.ciphers_eq_nil_of_silent silent
    have first : t.map Attempt.pair = planned.take 3 := by
      rw [← allOffers_eq, ← made, List.take_append_of_le_length (by simp [three])]
      exact (List.take_of_length_le (by simp [three])).symm
    simp only [none, List.isEmpty_nil, if_true]
    exact ⟨reflects.offers, .notTls first silent⟩
  | finished made alive =>
    by_cases none : s.ciphers.entries = []
    · simp only [none, List.isEmpty_nil, if_true]
      refine ⟨reflects.offers, reflects.surveyed made alive ?_ ?_⟩
      · exact (SortedMap.ext_entries none).symm
      · simp [none, TlsInfo.absent]
    · simp only [List.isEmpty_iff, none, if_false]
      refine ⟨reflects.offers, reflects.surveyed made alive (s.conclude_ciphers _) ?_⟩
      rw [s.conclude_presence]
      exact iff_of_true rfl none

/-- Whatever the server replies, the probe's result is what its attempts have shown. -/
theorem findings_probe {resolve : String → Option Net.Address} {host : String}
    {address : Net.Address} (resolved : resolve (Port.bareAddress host) = some address)
    (serverAt : Net.Endpoint → Server) (port : UInt16) :
    ∃ t, Answered (serverAt ⟨address, port⟩) t ∧
      (probe resolve serverAt host port).offers = offersOf t ∧
      Findings (serverAt ⟨address, port⟩) ⟨address, port⟩ t
        (probe resolve serverAt host port).tls := by
  rw [probe]
  simp only [resolved]
  exact findings_probeServer host ⟨address, port⟩ (serverAt ⟨address, port⟩)

def wary : Server where
  reply earlier o := .ok <|
    if o.version = .tls12 ∧ o.suite = 0xc02f ∧ o ∉ earlier then .accepted .none else .refused
  greeting _ := .error (.handshake "connection reset")

def names (host : String) : Option Net.Address :=
  if host = "router" then some (.v4 0x0a000001) else none

theorem findings_probe_wary :
    names (Port.bareAddress "[router]") = some (.v4 0x0a000001) ∧
      (∃ t, Answered wary t ∧ (probe names (fun _ => wary) "[router]" 443).offers = offersOf t ∧
        Findings wary ⟨.v4 0x0a000001, 443⟩ t (probe names (fun _ => wary) "[router]" 443).tls) ∧
      (probe names (fun _ => wary) "[router]" 443).tls.ciphers.entries =
        [("VersionTLS12", [⟨"TLS_ECDHE_RSA_WITH_AES_128_GCM_SHA256", .acceptable⟩])] :=
  ⟨by decide +kernel, findings_probe (by decide +kernel) (fun _ => wary) 443, by decide +kernel⟩

end FleetPosture.Tls
