import FleetPosture.Proofs.Time.Timestamp
import FleetPosture.Snapshot.Json

/-! All times in a snapshot that was read from JSON have a text: they were read from one. -/

namespace FleetPosture

namespace Json

variable {α : Type} {item? : Json → Option α}

theorem exists_of_required? {v : Option Json} {a : α} (h : required? item? v = some a) :
    ∃ w, item? w = some a := by
  cases v with
  | none => exact absurd h (by simp [required?])
  | some w => exact ⟨w, h⟩

theorem exists_of_optional? {v : Option Json} {a : α} (h : optional? item? v = some (some a)) :
    ∃ w, item? w = some a := by
  unfold optional? at h
  split at h
  · exact absurd h (by simp)
  · exact absurd h (by simp)
  · next w _ => exact ⟨w, by simpa using h⟩

theorem exists_of_mem_mapM {β : Type} {f : β → Option α} {xs : List β} {ys : List α}
    (h : xs.mapM f = some ys) {y : α} (hy : y ∈ ys) : ∃ x, f x = some y := by
  induction xs generalizing ys with
  | nil =>
    obtain rfl : [] = ys := by simpa using h
    exact absurd hy (by simp)
  | cons x xs ih =>
    simp only [List.mapM_cons, Option.bind_eq_bind, Option.bind_eq_some_iff, Option.pure_def,
      Option.some.injEq] at h
    obtain ⟨z, hz, zs, hzs, rfl⟩ := h
    rcases List.mem_cons.1 hy with rfl | hy
    · exact ⟨x, hz⟩
    · exact ih hzs hy

theorem exists_of_mem_list? {v : Json} {xs : List α} (h : list? item? v = some xs) {x : α}
    (hx : x ∈ xs) : ∃ w, item? w = some x := by
  unfold list? at h
  split at h
  · exact exists_of_mem_mapM h hx
  · exact absurd h (by simp)

theorem exists_of_mem_required? {v : Option Json} {xs : List α}
    (h : required? (list? item?) v = some xs) {x : α} (hx : x ∈ xs) : ∃ w, item? w = some x := by
  obtain ⟨w, hw⟩ := exists_of_required? h
  exact exists_of_mem_list? hw hx

end Json

namespace Timestamp

def IsDated (t : Timestamp) : Prop := ∃ text, t.text? = some text

theorem isDated_of_ofJson? {v : Json} {t : Timestamp} (h : ofJson? v = some t) : t.IsDated := by
  obtain ⟨s, -, hs⟩ := Option.bind_eq_some_iff.1 h
  exact text?_of_parse? hs

end Timestamp

def TlsInfo.IsDated (i : TlsInfo) : Prop := ∀ c, i.certificate = some c → c.expiration.IsDated

def Host.IsDated (h : Host) : Prop :=
  ∀ p ∈ h.processes, ∀ port ∈ p.ports, ∀ i, port.tls = some i → i.IsDated

structure Snapshot.IsDated (s : Snapshot) : Prop where
  createdAt : s.createdAt.IsDated
  hosts : ∀ h ∈ s.hosts, h.IsDated

theorem Certificate.isDated_of_ofJson? {v : Json} {c : Certificate} (h : ofJson? v = some c) :
    c.expiration.IsDated := by
  obtain ⟨fields, -, h⟩ := Option.bind_eq_some_iff.1 h
  split at h
  · simp only [Option.bind_eq_bind, Option.bind_eq_some_iff, Option.some.injEq] at h
    obtain ⟨bits, -, expiration, he, subject, -, rfl⟩ := h
    obtain ⟨w, hw⟩ := Json.exists_of_required? he
    exact Timestamp.isDated_of_ofJson? hw
  · exact absurd h (by simp)

theorem TlsInfo.isDated_of_ofJson? {v : Json} {i : TlsInfo} (h : ofJson? v = some i) :
    i.IsDated := by
  obtain ⟨fields, -, h⟩ := Option.bind_eq_some_iff.1 h
  split at h
  · simp only [Option.bind_eq_bind, Option.bind_eq_some_iff, Option.some.injEq] at h
    obtain ⟨presence, -, certificate, hc, ciphers, -, clientCertificate, -, scanError, -, rfl⟩ := h
    rintro c rfl
    obtain ⟨w, hw⟩ := Json.exists_of_optional? hc
    exact Certificate.isDated_of_ofJson? hw
  · exact absurd h (by simp)

theorem Port.isDated_of_ofJson? {v : Json} {p : Port} (h : ofJson? v = some p) {i : TlsInfo}
    (hi : p.tls = some i) : i.IsDated := by
  obtain ⟨fields, -, h⟩ := Option.bind_eq_some_iff.1 h
  split at h
  · simp only [Option.bind_eq_bind, Option.bind_eq_some_iff, Option.some.injEq] at h
    obtain ⟨protocol, -, address, -, number, -, state, -, tls, ht, rfl⟩ := h
    obtain rfl : tls = some i := hi
    obtain ⟨w, hw⟩ := Json.exists_of_optional? ht
    exact TlsInfo.isDated_of_ofJson? hw
  · exact absurd h (by simp)

theorem HostProcess.isDated_of_ofJson? {v : Json} {p : HostProcess} (h : ofJson? v = some p)
    {port : Port} (hport : port ∈ p.ports) {i : TlsInfo} (hi : port.tls = some i) : i.IsDated := by
  obtain ⟨fields, -, h⟩ := Option.bind_eq_some_iff.1 h
  split at h
  · simp only [Option.bind_eq_bind, Option.bind_eq_some_iff, Option.some.injEq] at h
    obtain ⟨commandName, -, pid, -, user, -, cmdline, -, env, -, ports, hp, rfl⟩ := h
    obtain ⟨x, hx⟩ := Json.exists_of_mem_required? hp hport
    exact Port.isDated_of_ofJson? hx hi
  · exact absurd h (by simp)

theorem Host.isDated_of_ofJson? {v : Json} {host : Host} (h : ofJson? v = some host) :
    host.IsDated := by
  obtain ⟨fields, -, h⟩ := Option.bind_eq_some_iff.1 h
  split at h
  · simp only [Option.bind_eq_bind, Option.bind_eq_some_iff, Option.some.injEq] at h
    obtain ⟨name, -, address, -, processes, hp, files, -, sshKeys, -, rfl⟩ := h
    intro p hmem port hport i hi
    obtain ⟨x, hx⟩ := Json.exists_of_mem_required? hp hmem
    exact HostProcess.isDated_of_ofJson? hx hport hi
  · exact absurd h (by simp)

theorem Snapshot.isDated_of_decode? {text : String} {s : Snapshot} (h : decode? text = some s) :
    s.IsDated := by
  obtain ⟨v, -, h⟩ := Option.bind_eq_some_iff.1 h
  obtain ⟨fields, -, h⟩ := Option.bind_eq_some_iff.1 h
  split at h
  · simp only [Option.bind_eq_bind, Option.bind_eq_some_iff, Option.some.injEq] at h
    obtain ⟨id, -, createdAt, hc, hosts, hh, rfl⟩ := h
    constructor
    · obtain ⟨w, hw⟩ := Json.exists_of_required? hc
      exact Timestamp.isDated_of_ofJson? hw
    · intro host hmem
      obtain ⟨x, hx⟩ := Json.exists_of_mem_required? hh hmem
      exact Host.isDated_of_ofJson? hx
  · exact absurd h (by simp)

end FleetPosture
