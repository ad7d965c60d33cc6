import FleetPosture.Proofs.Json.RoundTrip
import FleetPosture.Proofs.Snapshot.Stored
import FleetPosture.Proofs.Store.Rows
import FleetPosture.Proofs.Time.Timestamp
import FleetPosture.Proofs.Uuid
import FleetPosture.Store.Load
import Mathlib.Data.List.Forall2

/-! Loading what tables hold. That a row holds a value is said of the row and of all that belongs to
it, so that it stays true while rows are added to others. -/

namespace FleetPosture.Store

open Tables

section Cells

theorem bool?_ofBool (b : Bool) : (Cell.ofBool b).bool? = some b := by cases b <;> rfl

theorem natural?_ofNat {n limit : Nat} (h : n ≤ limit) : (Cell.ofNat n).natural? limit = some n := by
  have inRange : 0 ≤ (n : Int) ∧ (n : Int) ≤ limit := by omega
  rw [Cell.natural?, Cell.ofNat, Cell.integer?, Option.bind_some, if_pos inRange, Int.toNat_natCast]

theorem natural?_uint16 (n : UInt16) : (Cell.ofNat n.toNat).natural? Text.maxU16 = some n.toNat :=
  natural?_ofNat (Nat.le_of_lt_succ n.toNat_lt)

theorem natural?_uint32 (n : UInt32) : (Cell.ofNat n.toNat).natural? Text.maxU32 = some n.toNat :=
  natural?_ofNat (Nat.le_of_lt_succ n.toNat_lt)

theorem optional?_ofText? (s : Option String) : (Cell.ofText? s).optional? Cell.text? = some s := by
  cases s <;> rfl

theorem read_transport (p : Transport) : Transport.read p.name = .ok p := by cases p <;> rfl

theorem read_quality (q : CipherQuality) : CipherQuality.read q.name = .ok q := by cases q <;> rfl

theorem plain_ofTexts (xs : List String) : (Json.ofTexts xs).Plain := by
  refine .array fun v hv => ?_
  obtain ⟨s, -, rfl⟩ := List.mem_map.1 hv
  exact .string s

theorem readTexts_compact (xs : List String) : readTexts (Json.ofTexts xs).compact = .ok xs := by
  have texts : (xs.map Json.string).mapM Json.text? = some xs := by
    induction xs with
    | nil => rfl
    | cons x xs ih => rw [List.map_cons, List.mapM_cons, ih]; rfl
  rw [readTexts, Json.parse?_compact (plain_ofTexts xs), Option.bind_some]
  show decoded ((xs.map Json.string).mapM Json.text?) = _
  rw [texts, decoded]

end Cells

section Loops

variable {ε ρ α β γ : Type}

theorem mapM_zip_mapM {f : ρ → Except ε α} {g : ρ × α → Except ε β} {h : γ → β} {rows : List ρ}
    {ys : List γ}
    (all : List.Forall₂ (fun row y => ∃ a, f row = .ok a ∧ g (row, a) = .ok (h y)) rows ys) :
    (do let read ← rows.mapM f; (rows.zip read).mapM g) = .ok (ys.map h) := by
  have passes : ∃ read, rows.mapM f = .ok read ∧ (rows.zip read).mapM g = .ok (ys.map h) := by
    induction all with
    | nil => exact ⟨[], rfl, rfl⟩
    | cons head _ ih =>
      obtain ⟨a, first, second⟩ := head
      obtain ⟨read, firsts, seconds⟩ := ih
      refine ⟨a :: read, ?_, ?_⟩
      · rw [List.mapM_cons, first, firsts]
        rfl
      · rw [List.zip_cons_cons, List.mapM_cons, second, seconds]
        rfl
  obtain ⟨read, first, second⟩ := passes
  rw [first]
  exact second

theorem mapM_concat {f : ρ → Except ε α} {rows : List ρ} {row : ρ} {read : List α} {a : α}
    (first : rows.mapM f = .ok read) (last : f row = .ok a) :
    (rows ++ [row]).mapM f = .ok (read ++ [a]) := by
  rw [List.mapM_append, first, List.mapM_cons, last]
  rfl

end Loops

variable {t t' : Tables}

theorem readCipher_row (k port : Int) (v : String) (c : AcceptedCipher) :
    readCipher ⟨k, port, .text v, .text c.name, .text c.quality.name⟩ = .ok (v, c) := by
  simp only [readCipher, Cell.text?, decoded, bind, Except.bind, read_quality]
  rfl

def tlsRow (port : Int) (i : TlsInfo) (expiration : Cell) : TlsRow :=
  let ofSubject (field : Subject → String) : Cell :=
    .ofText? (i.certificate.map fun c => field c.subject)
  { port
    presence := .ofBool i.presence
    clientCertificate := .ofBool i.clientCertificate
    scanError := .ofText? i.scanError
    bits := (i.certificate.map fun c => Cell.ofNat c.bits.toNat).getD .null
    expiration
    country := ofSubject (·.country)
    province := ofSubject (·.province)
    locality := ofSubject (·.locality)
    organization := ofSubject (·.organization)
    commonName := ofSubject (·.commonName) }

theorem readTls_tlsRow_none {port : Int} {i : TlsInfo} (h : i.certificate = none) :
    readTls (tlsRow port i .null) = .ok { i with ciphers := .empty } := by
  obtain ⟨presence, certificate, ciphers, clientCertificate, scanError⟩ := i
  obtain rfl : certificate = none := h
  rw [readTls]
  simp only [tlsRow, bool?_ofBool, optional?_ofText?]
  rfl

theorem readTls_tlsRow_some {port : Int} {i : TlsInfo} {c : Certificate} {text : String}
    (h : i.certificate = some c) (ht : c.expiration.text? = some text) :
    readTls (tlsRow port i (.text text)) = .ok { i with ciphers := .empty } := by
  obtain ⟨presence, certificate, ciphers, clientCertificate, scanError⟩ := i
  obtain rfl : certificate = some c := h
  have bits : (Cell.ofNat c.bits.toNat).optional? (Cell.natural? Text.maxU32) =
      some (some c.bits.toNat) := by
    show ((Cell.ofNat c.bits.toNat).natural? Text.maxU32).map some = _
    rw [natural?_uint32, Option.map_some]
  rw [readTls]
  simp only [tlsRow, bool?_ofBool, optional?_ofText?, Option.map_some, Option.getD_some, bits]
  show (do
    let expiration ← decoded (Timestamp.parse? text)
    pure (⟨presence, some ⟨UInt32.ofNat c.bits.toNat, expiration, c.subject⟩, .empty,
      clientCertificate, scanError⟩ : TlsInfo)) = Except.ok _
  rw [Timestamp.parse?_of_text? ht, UInt32.ofNat_toNat]
  rfl

theorem loadTls_eq (t : Tables) (port : Int) :
    t.loadTls port = match (t.under .tls port).head? with
      | none => .ok none
      | some r => do
        let i ← readTls r
        let ciphers ← (t.under .ciphers port).mapM readCipher
        return some { i with ciphers := ciphers.foldl CipherTable.add .empty } := by
  have head : (t.under .tls port).head? = t.tls.find? (·.port == port) := List.head?_filter
  rw [head]
  rfl

theorem loadTls_congr {port : Int} (tls : t'.under .tls port = t.under .tls port)
    (ciphers : t'.under .ciphers port = t.under .ciphers port) :
    t'.loadTls port = t.loadTls port := by rw [loadTls_eq, loadTls_eq, tls, ciphers]

theorem loadTls_of_nil {port : Int} (h : t.under .tls port = []) : t.loadTls port = .ok none := by
  rw [loadTls_eq, h]
  rfl

theorem loadTls_of_row {port : Int} {row : TlsRow} {i : TlsInfo} (h : t.under .tls port = [row])
    (read : readTls row = .ok { i with ciphers := .empty })
    (ciphers : (t.under .ciphers port).mapM readCipher = .ok i.ciphers.listing) :
    t.loadTls port = .ok (some i.stored) := by
  rw [loadTls_eq, h, ciphers]
  show (do let i ← readTls row; _) = _
  rw [read]
  show Except.ok (some { i with ciphers := i.ciphers.listing.foldl CipherTable.add .empty }) = _
  rw [CipherTable.foldl_add_listing]
  rfl

theorem readPort_row (k process : Int) (p : Port) :
    readPort ⟨k, process, .text p.protocol.name, .text p.address, .ofNat p.number.toNat,
      .text p.state⟩ = .ok (p.protocol.name, { p with protocol := .tcp, tls := none }) := by
  simp only [readPort, natural?_uint16, Cell.text?, decoded]
  show Except.ok (p.protocol.name,
    (⟨.tcp, p.address, UInt16.ofNat p.number.toNat, p.state, none⟩ : Port)) = _
  rw [UInt16.ofNat_toNat]

theorem readProcess_row (k host : Int) (p : HostProcess) :
    readProcess ⟨k, host, .text p.commandName, .ofNat p.pid.toNat, .text p.user,
      Write.textsCell p.cmdline, Write.textsCell p.env⟩ =
      .ok ((Json.ofTexts p.cmdline).compact, (Json.ofTexts p.env).compact,
        { p with cmdline := [], env := [], ports := [] }) := by
  simp only [readProcess, natural?_uint32, Cell.text?, decoded, Write.textsCell]
  show Except.ok (_, _,
    (⟨p.commandName, UInt32.ofNat p.pid.toNat, p.user, [], [], []⟩ : HostProcess)) = _
  rw [UInt32.ofNat_toNat]

theorem readFile_row (k host : Int) (f : FileEntry) :
    readFile ⟨k, host, .text f.path, .ofNat f.permissions.toNat⟩ = .ok f := by
  simp only [readFile, natural?_uint32, Cell.text?, decoded]
  show Except.ok (⟨f.path, UInt32.ofNat f.permissions.toNat⟩ : FileEntry) = _
  rw [UInt32.ofNat_toNat]

structure HoldsPort (t : Tables) (row : PortRow) (p : Port) : Prop where
  given : row.id ≤ t.used .port
  read : readPort row = .ok (p.protocol.name, { p with protocol := .tcp, tls := none })
  tls : t.loadTls row.id = .ok (p.tls.map TlsInfo.stored)

structure HoldsProcess (t : Tables) (row : ProcessRow) (p : HostProcess) : Prop where
  given : row.id ≤ t.used .process
  read : readProcess row = .ok ((Json.ofTexts p.cmdline).compact, (Json.ofTexts p.env).compact,
    { p with cmdline := [], env := [], ports := [] })
  ports : List.Forall₂ (HoldsPort t) (t.under .ports row.id) p.ports

structure HoldsHost (t : Tables) (row : HostRow) (h : Host) : Prop where
  given : row.id ≤ t.used .host
  name : row.name = .text h.name
  address : row.address = .text h.address
  processes : List.Forall₂ (HoldsProcess t) (t.under .processes row.id) h.processes
  files : (t.under .files row.id).mapM readFile = .ok h.files
  keys : (t.under .keys row.id).mapM readKey = .ok h.sshKeys

/-- The row holds the snapshot, with its hosts under it. -/
structure HoldsSnapshot (t : Tables) (row : SnapshotRow) (s : Snapshot) : Prop where
  given : row.seq ≤ t.used .snapshot
  id : row.id = .text s.id.text
  createdAt : ∃ text, s.createdAt.text? = some text ∧ row.createdAt = .text text
  hosts : List.Forall₂ (HoldsHost t) (t.under .hosts row.seq) s.hosts

theorem loadPorts_of_holds {process : Int} {ps : List Port}
    (h : List.Forall₂ (HoldsPort t) (t.under .ports process) ps) :
    t.loadPorts process = .ok (ps.map Port.stored) := by
  refine mapM_zip_mapM (h.imp fun row p holds => ⟨_, holds.read, ?_⟩)
  simp only [read_transport, holds.tls]
  rfl

theorem loadProcesses_of_holds {host : Int} {ps : List HostProcess}
    (h : List.Forall₂ (HoldsProcess t) (t.under .processes host) ps) :
    t.loadProcesses host = .ok (ps.map HostProcess.stored) := by
  refine mapM_zip_mapM (h.imp fun row p holds => ⟨_, holds.read, ?_⟩)
  simp only [readTexts_compact, loadPorts_of_holds holds.ports]
  rfl

theorem loadHosts_of_holds {snapshot : Int} {hosts : List Host}
    (h : List.Forall₂ (HoldsHost t) (t.under .hosts snapshot) hosts) :
    t.loadHosts snapshot = .ok (hosts.map Host.stored) := by
  refine mapM_zip_mapM (h.imp fun row host holds => ⟨(host.name, host.address), ?_, ?_⟩)
  · simp only [holds.name, holds.address]
    rfl
  · show t.loadHost row host.name host.address = _
    have files : (t.files.rows.filter (·.host == row.id)).mapM readFile = .ok host.files := holds.files
    have keys : (t.keys.rows.filter (·.host == row.id)).mapM readKey = .ok host.sshKeys := holds.keys
    rw [loadHost, loadProcesses_of_holds holds.processes, files, keys]
    rfl

theorem loadSnapshot_of_holds {row : SnapshotRow} {s : Snapshot} (h : HoldsSnapshot t row s) :
    t.loadSnapshot row = .ok s.stored := by
  obtain ⟨text, written, put⟩ := h.createdAt
  have identified : Uuid.parse? s.id.text = some s.id := Uuid.parse?_text s.id
  have dated : Timestamp.parse? text = some s.createdAt := Timestamp.parse?_of_text? written
  simp only [loadSnapshot, h.id, put, Cell.text?, decoded, bind, Except.bind, identified, dated,
    loadHosts_of_holds h.hosts]
  rfl

section Mono

variable {changed : Link → Int → Prop} (e : Spares changed t t')

include e

theorem HoldsPort.mono {row : PortRow} {p : Port} (h : HoldsPort t row p)
    (tls : ∀ k, ¬ changed .tls k) (ciphers : ∀ k, ¬ changed .ciphers k) : HoldsPort t' row p where
  given := Int.le_trans h.given (e.used _)
  read := h.read
  tls := by
    rw [loadTls_congr (e.under .tls _ h.given (tls _)) (e.under .ciphers _ h.given (ciphers _))]
    exact h.tls

theorem HoldsProcess.mono {row : ProcessRow} {p : HostProcess} (h : HoldsProcess t row p)
    (ports : ∀ k, ¬ changed .ports k) (tls : ∀ k, ¬ changed .tls k)
    (ciphers : ∀ k, ¬ changed .ciphers k) : HoldsProcess t' row p where
  given := Int.le_trans h.given (e.used _)
  read := h.read
  ports := by
    rw [e.under .ports _ h.given (ports _)]
    exact h.ports.imp fun _ _ holds => holds.mono e tls ciphers

theorem HoldsHost.mono {row : HostRow} {h : Host} (holds : HoldsHost t row h)
    (others : ∀ l k, l ≠ .hosts → ¬ changed l k) : HoldsHost t' row h where
  given := Int.le_trans holds.given (e.used _)
  name := holds.name
  address := holds.address
  processes := by
    rw [e.under .processes _ holds.given (others _ _ (by decide))]
    exact holds.processes.imp fun _ _ p => p.mono e (fun _ => others _ _ (by decide))
      (fun _ => others _ _ (by decide)) (fun _ => others _ _ (by decide))
  files := by
    rw [e.under .files _ holds.given (others _ _ (by decide))]
    exact holds.files
  keys := by
    rw [e.under .keys _ holds.given (others _ _ (by decide))]
    exact holds.keys

theorem HoldsSnapshot.mono {row : SnapshotRow} {s : Snapshot} (holds : HoldsSnapshot t row s)
    (hosts : ¬ changed .hosts row.seq) (others : ∀ l k, l ≠ .hosts → ¬ changed l k) :
    HoldsSnapshot t' row s where
  given := Int.le_trans holds.given (e.used _)
  id := holds.id
  createdAt := holds.createdAt
  hosts := by
    rw [e.under .hosts _ holds.given hosts]
    exact holds.hosts.imp fun _ _ h => h.mono e others

end Mono

end FleetPosture.Store
