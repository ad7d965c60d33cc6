import FleetPosture.Proofs.Snapshot.Dated
import FleetPosture.Proofs.Store.Reading

/-! Saving a snapshot adds rows that hold it, and changes nothing of what was saved before. -/

namespace FleetPosture.Store

open Tables

namespace Cost

def ofTls (i : TlsInfo) : Cost := sum i.ciphers.entries fun e => sum e.2 fun _ => one .cipher

def ofPort (p : Port) : Cost := (one .port).and (p.tls.elim none ofTls)

def ofProcess (p : HostProcess) : Cost := (one .process).and (sum p.ports ofPort)

def ofHost (h : Host) : Cost :=
  (one .host).and ((sum h.processes ofProcess).and
    ((sum h.files fun _ => one .file).and (sum h.sshKeys fun _ => one .key)))

def ofSnapshot (s : Snapshot) : Cost := (one .snapshot).and (sum s.hosts ofHost)

end Cost

variable {t : Tables}

theorem meets_forM {β : Type} {l : Link} {o : Int} {xs : List β} {f : β → Write Unit}
    {cost : β → Cost} (holds : Tables → List β → Prop) (grounded : t.Grounded)
    (given : o ≤ t.used l.owner) (start : holds t [])
    (step : ∀ {t : Tables} {done : List β}, t.Grounded → o ≤ t.used l.owner → holds t done →
      ∀ x ∈ xs, Meets (f x) t (cost x) fun _ t' => Extends (only l o) t t' ∧ holds t' (done ++ [x])) :
    Meets (xs.forM f) t (Cost.sum xs cost) fun _ t' => Extends (only l o) t t' ∧ holds t' xs := by
  refine Meets.forM (fun done t' => Extends (only l o) t t' ∧ holds t' done)
    ⟨.refl grounded, start⟩ ?_
  rintro done x t' hx ⟨ext, held⟩
  refine (step ext.grounded (Int.le_trans given (ext.used _)) held x hx).imp ?_
  exact fun _ t'' ⟨ext', held'⟩ => ⟨ext.trans ext' fun _ _ _ h => h, held'⟩

theorem meets_row {α : Type} {l : Link} [Keyed l.Row] (place : Place l) {row : Int → l.Row} {o : Int}
    (owned : ∀ k, place.owner (row k) = o) (key : ∀ k, Keyed.key (row k) = k)
    (grounded : t.Grounded) (given : o ≤ t.used l.owner) {readRow : l.Row → Except StoreError α}
    {read : List α} {a : α} (before : (t.under l o).mapM readRow = .ok read)
    (reads : ∀ k, readRow (row k) = .ok a) :
    Meets (Write.add place.table place.replace row >>= fun _ => pure ()) t (Cost.one place.kind)
      fun _ t' => Extends (only l o) t t' ∧ (t'.under l o).mapM readRow = .ok (read ++ [a]) := by
  refine Meets.bind (d := Cost.none) (Meets.addTo place owned key) ?_
  rintro k t' - ⟨-, -, added⟩
  refine .pure ⟨added.toExtends grounded given, ?_⟩
  rw [added.under_owner]
  exact mapM_concat before (reads k)

theorem meets_cipher (grounded : t.Grounded) {port : Int} (given : port ≤ t.used .port)
    {read : List (String × AcceptedCipher)}
    (before : (t.under .ciphers port).mapM readCipher = .ok read) (version : String)
    (c : AcceptedCipher) :
    Meets (Write.cipher port version c) t (Cost.one .cipher) fun _ t' =>
      Extends (only .ciphers port) t t' ∧
        (t'.under .ciphers port).mapM readCipher = .ok (read ++ [(version, c)]) :=
  meets_row (o := port) .ciphers (fun _ => rfl) (fun _ => rfl) grounded given before
    fun k => readCipher_row k port version c

theorem meets_file (grounded : t.Grounded) {host : Int} (given : host ≤ t.used .host)
    {read : List FileEntry} (before : (t.under .files host).mapM readFile = .ok read)
    (f : FileEntry) :
    Meets (Write.file host f) t (Cost.one .file) fun _ t' => Extends (only .files host) t t' ∧
      (t'.under .files host).mapM readFile = .ok (read ++ [f]) :=
  meets_row (o := host) .files (fun _ => rfl) (fun _ => rfl) grounded given before
    fun k => readFile_row k host f

theorem meets_key (grounded : t.Grounded) {host : Int} (given : host ≤ t.used .host)
    {read : List HostKey} (before : (t.under .keys host).mapM readKey = .ok read) (h : HostKey) :
    Meets (Write.key host h) t (Cost.one .key) fun _ t' => Extends (only .keys host) t t' ∧
      (t'.under .keys host).mapM readKey = .ok (read ++ [h]) :=
  meets_row (o := host) .keys (fun _ => rfl) (fun _ => rfl) grounded given before fun _ => rfl

theorem exists_tlsRow {i : TlsInfo} (dated : i.IsDated) (port : Int) :
    ∃ expiration, readTls (tlsRow port i expiration) = .ok { i with ciphers := .empty } ∧
      ∀ t : Tables, Write.tls port i t =
        (i.ciphers.entries.forM fun e => e.2.forM (Write.cipher port e.1))
          { t with tls := t.tls ++ [tlsRow port i expiration] } := by
  obtain hc | ⟨c, hc⟩ := Option.eq_none_or_eq_some i.certificate
  · refine ⟨.null, readTls_tlsRow_none hc, fun t => ?_⟩
    simp only [Write.tls, tlsRow, hc]
    rfl
  · obtain ⟨text, ht⟩ := dated c hc
    refine ⟨.text text, readTls_tlsRow_some hc ht, fun t => ?_⟩
    simp only [Write.tls, tlsRow, hc, ht, decoded]
    rfl

def onlySettings (port : Int) : Link → Int → Prop := fun l k => (l = .tls ∨ l = .ciphers) ∧ k = port

theorem meets_version (grounded : t.Grounded) {port : Int} (given : port ≤ t.used .port)
    {read : List (String × AcceptedCipher)}
    (before : (t.under .ciphers port).mapM readCipher = .ok read)
    (e : String × List AcceptedCipher) :
    Meets (e.2.forM (Write.cipher port e.1)) t (Cost.sum e.2 fun _ => Cost.one .cipher) fun _ t' =>
      Extends (only .ciphers port) t t' ∧
        (t'.under .ciphers port).mapM readCipher = .ok (read ++ e.2.map (e.1, ·)) := by
  refine meets_forM (fun t done =>
    (t.under .ciphers port).mapM readCipher = .ok (read ++ done.map (e.1, ·))) grounded given
    (by simpa using before) ?_
  intro t done grounded given held c _
  refine (meets_cipher grounded given held e.1 c).imp ?_
  rintro _ t' ⟨ext, held'⟩
  refine ⟨ext, ?_⟩
  rw [held', List.map_append, List.append_assoc]
  rfl

theorem meets_tls (grounded : t.Grounded) {port : Int} (given : port ≤ t.used .port)
    (noTls : t.under .tls port = []) (noCiphers : t.under .ciphers port = []) {i : TlsInfo}
    (dated : i.IsDated) :
    Meets (Write.tls port i) t (Cost.ofTls i) fun _ t' =>
      Extends (onlySettings port) t t' ∧ t'.loadTls port = .ok (some i.stored) := by
  obtain ⟨expiration, read, run⟩ := exists_tlsRow dated port
  let row := tlsRow port i expiration
  have added : Added .tls port row t { t with tls := t.tls ++ [row] } := by
    constructor
    · rfl
    · exact { Grows.refl t with tls := List.prefix_append _ _ }
    · exact fun k => Int.le_refl _
    · exact fun k => filter_concat t.tls row (·.port) k
    · intro l k hl
      cases l <;> first | rfl | exact absurd rfl hl
  have ext : Extends (onlySettings port) t { t with tls := t.tls ++ [row] } :=
    (added.toExtends grounded given).imp fun l k h => ⟨.inl h.1, h.2⟩
  refine Meets.of_run_eq (run t) (fun _ => rfl) ?_
  -- after some versions their ciphers are listed, and the row of the settings still stands alone
  refine Meets.imp (Meets.forM (fun done t' => Extends (onlySettings port) t t' ∧
    t'.under .tls port = [row] ∧ (t'.under .ciphers port).mapM readCipher =
      .ok (done.flatMap fun e => e.2.map (e.1, ·))) ?_ ?_) ?_
  · refine ⟨ext, ?_, ?_⟩
    · rw [added.under_owner, noTls, List.nil_append]
    · rw [added.others .ciphers port (by decide), noCiphers]
      rfl
  · rintro done e t' - ⟨ext', held, listed⟩
    have given' := Int.le_trans given (ext'.used .port)
    refine (meets_version ext'.grounded given' listed e).imp ?_
    rintro _ t'' ⟨ext'', listed'⟩
    refine ⟨ext'.trans ext'' fun l k _ h => ⟨.inr h.1, h.2⟩, ?_, ?_⟩
    · rw [ext''.under .tls port given' (by simp [only]), held]
    · rw [listed', List.flatMap_append]
      simp
  · rintro _ t' ⟨ext', held, listed⟩
    exact ⟨ext', loadTls_of_row held read listed⟩

theorem forall₂_concat {α β : Type} {R : α → β → Prop} {xs : List α} {ys : List β} {x : α} {y : β}
    (h : List.Forall₂ R xs ys) (last : R x y) : List.Forall₂ R (xs ++ [x]) (ys ++ [y]) :=
  List.rel_append h (.cons last .nil)

theorem meets_port (grounded : t.Grounded) {process : Int} (given : process ≤ t.used .process)
    {done : List Port} (before : List.Forall₂ (HoldsPort t) (t.under .ports process) done)
    {p : Port} (dated : ∀ i, p.tls = some i → i.IsDated) :
    Meets (Write.port process p) t (Cost.ofPort p) fun _ t' => Extends (only .ports process) t t' ∧
      List.Forall₂ (HoldsPort t') (t'.under .ports process) (done ++ [p]) := by
  unfold Write.port Cost.ofPort
  refine Meets.bind (Meets.addTo .ports (fun _ => rfl) (fun _ => rfl)) ?_
  rintro k t₁ - ⟨(above : t.used .port < k), (reached : k ≤ t₁.used .port), added⟩
  have ext := added.toExtends grounded given
  have noTls : t₁.under .tls k = [] := by
    rw [added.others .tls _ (by decide)]
    exact grounded .tls _ above
  have noCiphers : t₁.under .ciphers k = [] := by
    rw [added.others .ciphers _ (by decide)]
    exact grounded .ciphers _ above
  -- the settings, if there are any, belong to the new key, so the old ports are held as before
  suffices settings : Meets (p.tls.forM (Write.tls k)) t₁ (p.tls.elim .none .ofTls) fun _ t' =>
      Extends (onlySettings k) t₁ t' ∧ t'.loadTls k = .ok (p.tls.map TlsInfo.stored) by
    refine settings.imp ?_
    rintro _ t' ⟨ext', loaded⟩
    have whole : Extends (only .ports process) t t' := by
      refine ext.trans_new ext' fun l j hc => ?_
      obtain ⟨rfl | rfl, rfl⟩ := hc
      · exact above
      · exact above
    refine ⟨whole, ?_⟩
    rw [ext'.under .ports process (Int.le_trans given (ext.used _)) (by simp [onlySettings]),
      added.under_owner]
    refine forall₂_concat (before.imp fun row q holds => holds.mono whole.toSpares (by simp [only])
      (by simp [only])) ⟨Int.le_trans reached (ext'.used _), readPort_row k process p, loaded⟩
  cases ht : p.tls with
  | none => exact .pure ⟨.refl ext.grounded, loadTls_of_nil noTls⟩
  | some i => exact meets_tls ext.grounded reached noTls noCiphers (dated i ht)

theorem meets_ports (grounded : t.Grounded) {process : Int} (given : process ≤ t.used .process)
    (none : t.under .ports process = []) {ps : List Port}
    (dated : ∀ p ∈ ps, ∀ i, p.tls = some i → i.IsDated) :
    Meets (ps.forM (Write.port process)) t (Cost.sum ps Cost.ofPort) fun _ t' =>
      Extends (only .ports process) t t' ∧
        List.Forall₂ (HoldsPort t') (t'.under .ports process) ps :=
  meets_forM (fun t done => List.Forall₂ (HoldsPort t) (t.under .ports process) done) grounded
    given (none ▸ .nil) fun grounded given held p hp => meets_port grounded given held (dated p hp)

theorem meets_process (grounded : t.Grounded) {host : Int} (given : host ≤ t.used .host)
    {done : List HostProcess}
    (before : List.Forall₂ (HoldsProcess t) (t.under .processes host) done) {p : HostProcess}
    (dated : ∀ port ∈ p.ports, ∀ i, port.tls = some i → i.IsDated) :
    Meets (Write.process host p) t (Cost.ofProcess p) fun _ t' =>
      Extends (only .processes host) t t' ∧
        List.Forall₂ (HoldsProcess t') (t'.under .processes host) (done ++ [p]) := by
  unfold Write.process Cost.ofProcess
  refine Meets.bind (Meets.addTo .processes (fun _ => rfl) (fun _ => rfl)) ?_
  rintro k t₁ - ⟨(above : t.used .process < k), (reached : k ≤ t₁.used .process), added⟩
  have ext := added.toExtends grounded given
  have noPorts : t₁.under .ports k = [] := by
    rw [added.others .ports _ (by decide)]
    exact grounded .ports _ above
  refine (meets_ports ext.grounded reached noPorts dated).imp ?_
  rintro _ t' ⟨ext', held⟩
  have whole : Extends (only .processes host) t t' :=
    ext.trans_new ext' fun _ _ => lt_of_only above
  refine ⟨whole, ?_⟩
  rw [ext'.under .processes host (Int.le_trans given (ext.used _)) (by simp [only]),
    added.under_owner]
  exact forall₂_concat (before.imp fun row q holds => holds.mono whole.toSpares (by simp [only])
    (by simp [only]) (by simp [only]))
    ⟨Int.le_trans reached (ext'.used _), readProcess_row k host p, held⟩

theorem meets_processes (grounded : t.Grounded) {host : Int} (given : host ≤ t.used .host)
    (none : t.under .processes host = []) {ps : List HostProcess}
    (dated : ∀ p ∈ ps, ∀ port ∈ p.ports, ∀ i, port.tls = some i → i.IsDated) :
    Meets (ps.forM (Write.process host)) t (Cost.sum ps Cost.ofProcess) fun _ t' =>
      Extends (only .processes host) t t' ∧
        List.Forall₂ (HoldsProcess t') (t'.under .processes host) ps :=
  meets_forM (fun t done => List.Forall₂ (HoldsProcess t) (t.under .processes host) done) grounded
    given (none ▸ .nil) fun grounded given held p hp => meets_process grounded given held (dated p hp)

theorem meets_files (grounded : t.Grounded) {host : Int} (given : host ≤ t.used .host)
    (none : t.under .files host = []) (fs : List FileEntry) :
    Meets (fs.forM (Write.file host)) t (Cost.sum fs fun _ => Cost.one .file) fun _ t' =>
      Extends (only .files host) t t' ∧ (t'.under .files host).mapM readFile = .ok fs :=
  meets_forM (fun t done => (t.under .files host).mapM readFile = .ok done) grounded given
    (none ▸ rfl) fun grounded given held f _ => meets_file grounded given held f

theorem meets_keys (grounded : t.Grounded) {host : Int} (given : host ≤ t.used .host)
    (none : t.under .keys host = []) (ks : List HostKey) :
    Meets (ks.forM (Write.key host)) t (Cost.sum ks fun _ => Cost.one .key) fun _ t' =>
      Extends (only .keys host) t t' ∧ (t'.under .keys host).mapM readKey = .ok ks :=
  meets_forM (fun t done => (t.under .keys host).mapM readKey = .ok done) grounded given
    (none ▸ rfl) fun grounded given held k _ => meets_key grounded given held k

theorem meets_host (grounded : t.Grounded) {snapshot : Int} (given : snapshot ≤ t.used .snapshot)
    {done : List Host} (before : List.Forall₂ (HoldsHost t) (t.under .hosts snapshot) done)
    {h : Host} (dated : h.IsDated) :
    Meets (Write.host snapshot h) t (Cost.ofHost h) fun _ t' =>
      Extends (only .hosts snapshot) t t' ∧
        List.Forall₂ (HoldsHost t') (t'.under .hosts snapshot) (done ++ [h]) := by
  unfold Write.host Cost.ofHost
  refine Meets.bind (Meets.addTo .hosts (fun _ => rfl) (fun _ => rfl)) ?_
  rintro k t₁ - ⟨(above : t.used .host < k), (reached : k ≤ t₁.used .host), added⟩
  have none (l : Link) (hl : l ≠ .hosts) (ho : l.owner = .host) : t₁.under l k = [] := by
    rw [added.others l _ hl]
    exact grounded l _ (ho ▸ above)
  have ext₁ := added.toExtends grounded given
  refine Meets.bind (meets_processes ext₁.grounded reached (none .processes (by decide) rfl) dated) ?_
  rintro _ t₂ - ⟨ext₂, processes⟩
  have reached₂ := Int.le_trans reached (ext₂.used _)
  have noFiles : t₂.under .files k = [] := by
    rw [ext₂.under .files _ reached (by simp [only])]
    exact none .files (by decide) rfl
  refine Meets.bind (meets_files ext₂.grounded reached₂ noFiles h.files) ?_
  rintro _ t₃ - ⟨ext₃, files⟩
  have reached₃ := Int.le_trans reached₂ (ext₃.used _)
  have noKeys : t₃.under .keys k = [] := by
    rw [ext₃.under .keys _ reached₂ (by simp [only]), ext₂.under .keys _ reached (by simp [only])]
    exact none .keys (by decide) rfl
  refine (meets_keys ext₃.grounded reached₃ noKeys h.sshKeys).imp ?_
  rintro _ t₄ ⟨ext₄, keys⟩
  have ext₁₂ := ext₁.trans_new ext₂ fun _ _ => lt_of_only above
  have ext₁₃ := ext₁₂.trans_new ext₃ fun _ _ => lt_of_only above
  have whole := ext₁₃.trans_new ext₄ fun _ _ => lt_of_only above
  have given₁ := Int.le_trans given (ext₁.used _)
  have given₂ := Int.le_trans given₁ (ext₂.used _)
  have given₃ := Int.le_trans given₂ (ext₃.used _)
  refine ⟨whole, ?_⟩
  rw [ext₄.under .hosts _ given₃ (by simp [only]), ext₃.under .hosts _ given₂ (by simp [only]),
    ext₂.under .hosts _ given₁ (by simp [only]), added.under_owner]
  refine forall₂_concat (before.imp fun row g holds => holds.mono whole.toSpares fun l _ hl hc => hl hc.1)
    ⟨Int.le_trans reached₃ (ext₄.used _), rfl, rfl, ?_, ?_, keys⟩
  -- the files and keys that follow leave the processes as they were put down
  · have held₃ := processes.imp fun row p holds =>
      holds.mono ext₃.toSpares (by simp [only]) (by simp [only]) (by simp [only])
    rw [ext₄.under .processes _ reached₃ (by simp [only]),
      ext₃.under .processes _ reached₂ (by simp [only])]
    exact held₃.imp fun row p holds =>
      holds.mono ext₄.toSpares (by simp [only]) (by simp [only]) (by simp [only])
  · rw [ext₄.under .files _ reached₃ (by simp [only])]
    exact files

theorem meets_hosts (grounded : t.Grounded) {snapshot : Int} (given : snapshot ≤ t.used .snapshot)
    (none : t.under .hosts snapshot = []) {hosts : List Host} (dated : ∀ h ∈ hosts, h.IsDated) :
    Meets (hosts.forM (Write.host snapshot)) t (Cost.sum hosts Cost.ofHost) fun _ t' =>
      Extends (only .hosts snapshot) t t' ∧
        List.Forall₂ (HoldsHost t') (t'.under .hosts snapshot) hosts :=
  meets_forM (fun t done => List.Forall₂ (HoldsHost t) (t.under .hosts snapshot) done) grounded
    given (none ▸ .nil) fun grounded given held h hh => meets_host grounded given held (dated h hh)

end FleetPosture.Store
