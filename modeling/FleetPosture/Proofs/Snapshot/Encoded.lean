import FleetPosture.Proofs.Json.RoundTrip
import FleetPosture.Proofs.Snapshot.Dated
import FleetPosture.Proofs.SortedMap
import FleetPosture.Proofs.Uuid
import Mathlib.Data.List.Forall2

/-! Snapshots are read back from the JSON that they are written as: each kind of value in them is
written as a plain value that its reader takes for the same thing, and lists and records of such
values are again of that kind. -/

namespace FleetPosture

namespace Json

variable {α : Type} {item? : Json → Option α}

/-- The value is written as itself, is not taken for an absent one, and is read as `a`. -/
structure Encodes (item? : Json → Option α) (v : Json) (a : α) : Prop where
  plain : v.Plain
  present : v ≠ .null
  read : item? v = some a

theorem encodes_text (s : String) : Encodes text? (.string s) s where
  plain := .string s
  present := by simp
  read := rfl

theorem encodes_bool (b : Bool) : Encodes bool? (.bool b) b where
  plain := .bool b
  present := by simp
  read := rfl

theorem plain_natural {n : Nat} (h : n ≤ Text.maxU64) : (Json.integer n).Plain := by
  have low : (0 : Int) ≤ n := Int.natCast_nonneg n
  exact .integer (by omega) (Int.ofNat_le.2 h)

theorem natural?_integer (limit : Nat) {n : Nat} (h : n ≤ limit) :
    (Json.integer n).natural? limit = some n := by
  have inRange : 0 ≤ (n : Int) ∧ (n : Int) ≤ limit := by omega
  rw [natural?, if_pos inRange, Int.toNat_natCast]

theorem encodes_uint16 (n : UInt16) : Encodes uint16? (.integer n.toNat) n where
  plain := plain_natural (Nat.le_trans (Nat.le_of_lt_succ n.toNat_lt) (by decide))
  present := by simp
  read := by
    have value := natural?_integer Text.maxU16 (Nat.le_of_lt_succ n.toNat_lt)
    rw [uint16?, value, Option.map_some, UInt16.ofNat_toNat]

theorem encodes_uint32 (n : UInt32) : Encodes uint32? (.integer n.toNat) n where
  plain := plain_natural (Nat.le_trans (Nat.le_of_lt_succ n.toNat_lt) (by decide))
  present := by simp
  read := by
    have value := natural?_integer Text.maxU32 (Nat.le_of_lt_succ n.toNat_lt)
    rw [uint32?, value, Option.map_some, UInt32.ofNat_toNat]

theorem mapM_of_encodes {vs : List Json} {xs : List α} (h : List.Forall₂ (Encodes item?) vs xs) :
    vs.mapM item? = some xs := by
  induction h with
  | nil => rfl
  | cons head _ ih => rw [List.mapM_cons, head.read, ih]; rfl

theorem plain_of_encodes {vs : List Json} {xs : List α} (h : List.Forall₂ (Encodes item?) vs xs) :
    ∀ v ∈ vs, v.Plain := by
  induction h with
  | nil => simp
  | cons head _ ih => exact List.forall_mem_cons.2 ⟨head.plain, ih⟩

theorem encodes_list {vs : List Json} {xs : List α} (h : List.Forall₂ (Encodes item?) vs xs) :
    Encodes (list? item?) (.array vs) xs where
  plain := .array (plain_of_encodes h)
  present := by simp
  read := mapM_of_encodes h

theorem encodes_map {toJson : α → Json} (xs : List α) (h : ∀ x ∈ xs, Encodes item? (toJson x) x) :
    Encodes (list? item?) (.array (xs.map toJson)) xs := by
  refine encodes_list (List.forall₂_map_left_iff.2 ?_)
  exact List.forall₂_same.2 h

theorem encodes_texts (xs : List String) : Encodes texts? (ofTexts xs) xs :=
  encodes_map xs fun x _ => encodes_text x

theorem exists_encodes_list {toJson? : α → Option Json} {xs : List α}
    (h : ∀ x ∈ xs, ∃ v, toJson? x = some v ∧ Encodes item? v x) :
    ∃ vs, xs.mapM toJson? = some vs ∧ Encodes (list? item?) (.array vs) xs := by
  suffices all : ∃ vs, xs.mapM toJson? = some vs ∧ List.Forall₂ (Encodes item?) vs xs by
    obtain ⟨vs, written, each⟩ := all
    exact ⟨vs, written, encodes_list each⟩
  induction xs with
  | nil => exact ⟨[], rfl, .nil⟩
  | cons x xs ih =>
    obtain ⟨hx, hxs⟩ := List.forall_mem_cons.1 h
    obtain ⟨v, first, encodes⟩ := hx
    obtain ⟨vs, rest, each⟩ := ih hxs
    refine ⟨v :: vs, ?_, .cons encodes each⟩
    rw [List.mapM_cons, first, rest]
    rfl

theorem exists_encodes_option {toJson? : α → Option Json} {a : Option α}
    (h : ∀ x, a = some x → ∃ v, toJson? x = some v ∧ Encodes item? v x) :
    ∃ w, a.mapM toJson? = some w ∧ Option.Rel (Encodes item?) w a := by
  cases a with
  | none => exact ⟨none, rfl, .none⟩
  | some x =>
    obtain ⟨v, written, encodes⟩ := h x rfl
    exact ⟨some v, by simp [written], .some encodes⟩

theorem optional?_of_encodes {w : Option Json} {a : Option α}
    (h : Option.Rel (Encodes item?) w a) : optional? item? w = some a := by
  cases h with
  | none => rfl
  | @some v x encodes =>
    have present := encodes.present
    unfold optional?
    split
    case h_1 heq => exact absurd heq (by simp)
    case h_2 heq => exact absurd (Option.some.inj heq) present
    case h_3 heq => rw [← Option.some.inj heq, encodes.read, Option.map_some]

theorem plain_of_mem_optionalField {w : Option Json} {a : Option α}
    (h : Option.Rel (Encodes item?) w a) (name : String) :
    ∀ f ∈ optionalField name w, f.2.Plain := by
  cases h with
  | none => simp [optionalField]
  | some encodes => simpa [optionalField] using encodes.plain

theorem keys_optionalField (name : String) (w : Option Json) :
    ((optionalField name w).map (·.1)).Sublist [name] := by
  cases w with
  | none => exact List.nil_sublist _
  | some v => exact List.Sublist.refl _

theorem lookup_optionalField (key name : String) (w : Option Json) :
    (optionalField name w).lookup key = if key = name then w else none := by
  cases w with
  | none => simp [optionalField]
  | some v => rw [optionalField, SortedMap.lookup_cons_eq_ite, List.lookup_nil]

theorem record?_object (names : List String) (fields : List (String × Json))
    (keys : (fields.map (·.1)).Sublist names) (distinct : names.Nodup) :
    (Json.object fields).record? names = some (names.map fun name => fields.lookup name) := by
  have known : fields.filter (fun f => names.contains f.1) = fields := by
    rw [List.filter_eq_self]
    intro f hf
    exact List.contains_iff_mem.2 (keys.subset (List.mem_map_of_mem hf))
  rw [record?]
  simp only [known, if_pos (keys.nodup distinct)]

end Json

open Json

theorem Transport.encodes (t : Transport) : Encodes ofJson? t.toJson t where
  plain := .string _
  present := by simp [toJson]
  read := by cases t <;> rfl

theorem CipherQuality.encodes (q : CipherQuality) : Encodes (choice? names) (.string q.name) q where
  plain := .string _
  present := by simp
  read := by cases q <;> rfl

theorem AcceptedCipher.encodes (c : AcceptedCipher) : Encodes ofJson? c.toJson c where
  plain := .object (by simp [Plain.string])
  present := by simp [toJson]
  read := by
    have fields := record?_object ["name", "quality"]
      [("name", .string c.name), ("quality", .string c.quality.name)]
      (List.Sublist.refl _) (by decide)
    rw [ofJson?, toJson, fields]
    simp [List.lookup_cons, required?, (encodes_text c.name).read, c.quality.encodes.read]

theorem Subject.encodes (s : Subject) : Encodes ofJson? s.toJson s where
  plain := .object (by simp [Plain.string])
  present := by simp [toJson]
  read := by
    have fields := record?_object
      ["country", "province", "locality", "organization", "common_name"]
      [("country", .string s.country), ("province", .string s.province),
        ("locality", .string s.locality), ("organization", .string s.organization),
        ("common_name", .string s.commonName)] (List.Sublist.refl _) (by decide)
    rw [ofJson?, toJson, fields]
    simp [List.lookup_cons, required?, text?]

theorem FileEntry.encodes (f : FileEntry) : Encodes ofJson? f.toJson f where
  plain := .object (by simp [Plain.string, (encodes_uint32 f.permissions).plain])
  present := by simp [toJson]
  read := by
    have fields := record?_object ["path", "permissions"]
      [("path", .string f.path), ("permissions", .integer f.permissions.toNat)]
      (List.Sublist.refl _) (by decide)
    rw [ofJson?, toJson, fields]
    simp [List.lookup_cons, required?, text?, (encodes_uint32 f.permissions).read]

theorem HostKey.encodes (k : HostKey) : Encodes ofJson? k.toJson k where
  plain := .object (by simp [Plain.string])
  present := by simp [toJson]
  read := by
    have fields := record?_object ["key_type", "key"]
      [("key_type", .string k.keyType), ("key", .string k.key)]
      (List.Sublist.refl _) (by decide)
    rw [ofJson?, toJson, fields]
    simp [List.lookup_cons, required?, text?]

theorem Timestamp.encodes {t : Timestamp} (h : t.IsDated) :
    ∃ v, t.toJson? = some v ∧ Encodes ofJson? v t := by
  obtain ⟨text, written⟩ := h
  refine ⟨.string text, by rw [toJson?, written, Option.map_some], ⟨.string text, by simp, ?_⟩⟩
  exact parse?_of_text? written

theorem Certificate.encodes {c : Certificate} (h : c.expiration.IsDated) :
    ∃ v, c.toJson? = some v ∧ Encodes ofJson? v c := by
  obtain ⟨expiration, written, expires⟩ := Timestamp.encodes h
  refine ⟨_, by rw [toJson?, written]; rfl, ?_, by simp, ?_⟩
  · exact .object (by simp [(encodes_uint32 c.bits).plain, expires.plain, c.subject.encodes.plain])
  · have fields := record?_object ["bits", "expiration", "subject"]
      [("bits", .integer c.bits.toNat), ("expiration", expiration),
        ("subject", c.subject.toJson)] (List.Sublist.refl _) (by decide)
    rw [ofJson?, fields]
    simp [List.lookup_cons, required?, (encodes_uint32 c.bits).read, expires.read,
      c.subject.encodes.read]

theorem CipherTable.encodes (t : CipherTable) : Encodes ofJson? t.toJson t where
  plain := by
    refine .object fun f hf => ?_
    obtain ⟨e, -, rfl⟩ := List.mem_map.1 hf
    exact (encodes_map e.2 fun c _ => c.encodes).plain
  present := by simp [toJson]
  read := by
    have entries : (t.entries.map fun e => (e.1, Json.array (e.2.map AcceptedCipher.toJson))).mapM
        (fun f => (list? AcceptedCipher.ofJson? f.2).map fun ciphers => (f.1, ciphers)) =
          some t.entries := by
      generalize t.entries = es
      induction es with
      | nil => rfl
      | cons e es ih =>
        have ciphers := (encodes_map e.2 fun c _ => AcceptedCipher.encodes c).read
        rw [List.map_cons, List.mapM_cons, ciphers, ih]
        rfl
    rw [toJson, ofJson?, entries, Option.map_some, SortedMap.ofList_entries]

theorem TlsInfo.encodes {i : TlsInfo} (h : i.IsDated) :
    ∃ v, i.toJson? = some v ∧ Encodes ofJson? v i := by
  obtain ⟨certificate, written, certified⟩ :=
    exists_encodes_option fun c hc => Certificate.encodes (h c hc)
  have error : Option.Rel (Encodes text?) (i.scanError.map .string) i.scanError := by
    cases i.scanError with
    | none => exact .none
    | some e => exact .some (encodes_text e)
  refine ⟨_, by rw [toJson?, written]; rfl, ?_, by simp, ?_⟩
  · refine .object ?_
    simp only [List.forall_mem_append, List.forall_mem_cons]
    exact ⟨⟨⟨⟨(encodes_bool _).plain, by simp⟩, plain_of_mem_optionalField certified _⟩,
      i.ciphers.encodes.plain, (encodes_bool _).plain, by simp⟩, plain_of_mem_optionalField error _⟩
  · have fields := record?_object
      ["presence", "certificate", "ciphers", "mutual", "scan_error"]
      ([("presence", .bool i.presence)] ++ optionalField "certificate" certificate ++
        [("ciphers", i.ciphers.toJson), ("mutual", .bool i.clientCertificate)] ++
        optionalField "scan_error" (i.scanError.map .string))
      (by
        simp only [List.map_append]
        exact (((List.Sublist.refl _).append (keys_optionalField _ _)).append
          (List.Sublist.refl _)).append (keys_optionalField _ _)) (by decide)
    rw [ofJson?, fields]
    simp [List.lookup_cons, List.lookup_append, lookup_optionalField, required?, defaulted?,
      (encodes_bool _).read, optional?_of_encodes certified, optional?_of_encodes error,
      i.ciphers.encodes.read]

theorem Port.encodes {p : Port} (h : ∀ i, p.tls = some i → i.IsDated) :
    ∃ v, p.toJson? = some v ∧ Encodes ofJson? v p := by
  obtain ⟨tls, written, found⟩ := exists_encodes_option fun i hi => TlsInfo.encodes (h i hi)
  refine ⟨_, by rw [toJson?, written]; rfl, ?_, by simp, ?_⟩
  · refine .object ?_
    simp only [List.forall_mem_append, List.forall_mem_cons]
    refine ⟨⟨p.protocol.encodes.plain, .string _, ?_, .string _, by simp⟩,
      plain_of_mem_optionalField found _⟩
    exact (encodes_uint16 p.number).plain
  · have fields := record?_object ["protocol", "address", "number", "state", "tls"]
      ([("protocol", p.protocol.toJson), ("address", .string p.address),
        ("number", .integer p.number.toNat), ("state", .string p.state)] ++ optionalField "tls" tls)
      (by
        rw [List.map_append]
        exact (List.Sublist.refl _).append (keys_optionalField _ _)) (by decide)
    rw [ofJson?, fields]
    simp [List.lookup_cons, lookup_optionalField, required?, text?,
      p.protocol.encodes.read, (encodes_uint16 p.number).read, optional?_of_encodes found]

theorem HostProcess.encodes {p : HostProcess}
    (h : ∀ port ∈ p.ports, ∀ i, port.tls = some i → i.IsDated) :
    ∃ v, p.toJson? = some v ∧ Encodes ofJson? v p := by
  obtain ⟨ports, written, listed⟩ := exists_encodes_list fun port hp => Port.encodes (h port hp)
  refine ⟨_, by rw [toJson?, written]; rfl, ?_, by simp, ?_⟩
  · exact .object (by simp [Plain.string, (encodes_uint32 p.pid).plain,
      (encodes_texts p.cmdline).plain, (encodes_texts p.env).plain, listed.plain])
  · have fields := record?_object
      ["command_name", "pid", "user", "cmdline", "env", "ports"]
      [("command_name", .string p.commandName), ("pid", .integer p.pid.toNat),
        ("user", .string p.user), ("cmdline", ofTexts p.cmdline), ("env", ofTexts p.env),
        ("ports", .array ports)] (List.Sublist.refl _) (by decide)
    rw [ofJson?, fields]
    simp [List.lookup_cons, required?, text?, (encodes_uint32 p.pid).read,
      (encodes_texts p.cmdline).read, (encodes_texts p.env).read, listed.read]

theorem Host.encodes {host : Host} (h : host.IsDated) :
    ∃ v, host.toJson? = some v ∧ Encodes ofJson? v host := by
  obtain ⟨processes, written, listed⟩ :=
    exists_encodes_list fun p hp => HostProcess.encodes (h p hp)
  have files := encodes_map host.files fun f _ => FileEntry.encodes f
  have keys := encodes_map host.sshKeys fun k _ => HostKey.encodes k
  refine ⟨_, by rw [toJson?, written]; rfl, ?_, by simp, ?_⟩
  · exact .object (by simp [Plain.string, listed.plain, files.plain, keys.plain])
  · have fields := record?_object ["name", "address", "processes", "files", "ssh_keys"]
      [("name", .string host.name), ("address", .string host.address),
        ("processes", .array processes), ("files", .array (host.files.map FileEntry.toJson)),
        ("ssh_keys", .array (host.sshKeys.map HostKey.toJson))] (List.Sublist.refl _) (by decide)
    rw [ofJson?, fields]
    simp [List.lookup_cons, required?, text?, listed.read, files.read, keys.read]

namespace Snapshot

theorem encodes {s : Snapshot} (h : s.IsDated) :
    ∃ v, s.toJson? = some v ∧ Encodes ofJson? v s := by
  obtain ⟨createdAt, dated, created⟩ := Timestamp.encodes h.createdAt
  obtain ⟨hosts, written, listed⟩ :=
    exists_encodes_list fun host hh => Host.encodes (h.hosts host hh)
  refine ⟨_, by rw [toJson?, dated, written]; rfl, ?_, by simp, ?_⟩
  · exact .object (by simp [Plain.string, created.plain, listed.plain])
  · have fields := record?_object ["id", "created_at", "hosts"]
      [("id", .string s.id.text), ("created_at", createdAt), ("hosts", .array hosts)]
      (List.Sublist.refl _) (by decide)
    rw [ofJson?, fields]
    simp [List.lookup_cons, required?, text?, Uuid.parse?_text, created.read, listed.read]

theorem exists_encode? {s : Snapshot} (h : s.IsDated) :
    ∃ (v : Json) (out : String), v.Plain ∧ out = v.compact ∧ s.encode? = some out ∧
      decode? out = some s := by
  obtain ⟨v, written, encoded⟩ := encodes h
  refine ⟨v, v.compact, encoded.plain, rfl, by rw [encode?, written, Option.map_some], ?_⟩
  rw [decode?, parse?_compact encoded.plain, Option.bind_some]
  exact encoded.read

/-- Whatever text a snapshot was read from, it is written in one way, and reading that gives it back
in full. -/
theorem decode?_encode? {text : String} {s : Snapshot} (h : decode? text = some s) :
    ∃ out, s.encode? = some out ∧ decode? out = some s ∧ (decode? out).bind encode? = some out := by
  obtain ⟨v, out, -, -, written, read⟩ := exists_encode? (isDated_of_decode? h)
  refine ⟨out, written, read, ?_⟩
  rw [read, Option.bind_some, written]

def spelled : Snapshot :=
  ⟨⟨0x0190b0a07c3e7d2a8f000123456789ab⟩, ⟨2024, 2, 29, 23, 20, 30, 120000000, -450, by decide⟩,
    [⟨"café 😀\"\\", "::1", [⟨"sh\x07\n", 4294967295, "", ["-c", ""], [],
      [⟨.udp, "", 65535, "", some ⟨true,
        some ⟨2048, ⟨2030, 1, 1, 0, 0, 0, 0, 0, by decide⟩, ⟨"AT", "", "", "", "a"⟩⟩,
        .ofList [("A", []), ("B", [⟨"x", .weak⟩])], false, some ""⟩⟩]⟩],
      [⟨"/a", 420⟩], []⟩]⟩

/-- The snapshot as another program may have put it: members in any order and given twice, records
as arrays, other spellings of times and identifiers. -/
def spelledText : String :=
  "\x7b\"hosts\": [\x7b\"name\": \"caf\\u00E9 \\ud83d\\uDE00\\\"\\\\\", \"address\":" ++
    "\"::1\", \"files\": [[\"\\/a\", 420]], \"ssh_keys\": []," ++
    "\"processes\": [[\"sh\\u0007\\n\", 4294967295, \"\", [\"-c\", \"\"], []," ++
    "[[\"udp\", \"\", 65535, \"\", \x7b\"presence\": true," ++
    "\"certificate\": [2048, \"2030-01-01t00:00:00.000-00:00\"," ++
    "[\"AT\", \"\", \"\", \"\", \"a\"]], \"ciphers\": \x7b\"B\": [], \"A\": []," ++
    "\"B\": [\x7b\"quality\": \"weak\", \"name\": \"x\"\x7d]\x7d," ++
    "\"scan_error\": \"\"\x7d]]]]\x7d]," ++
    "\"created_at\": \"2024-02-29 23:20:30.12000000009-07:30\"," ++
    "\"id\": \"URN:UUID:0190B0A0-7C3E-7D2A-8F00-0123456789AB\"\x7d"

theorem decode?_encode?_spelled : decode? spelledText = some spelled ∧
    ∃ out, spelled.encode? = some out ∧ decode? out = some spelled ∧
      (decode? out).bind encode? = some out := by
  have decoded : decode? spelledText = some spelled := by
    -- the characters of one long literal take the kernel far longer than those of its parts
    rw [decode?, parse?]
    delta spelledText
    repeat rw [String.toList_append]
    decide +kernel
  exact ⟨decoded, decode?_encode? decoded⟩

end Snapshot
end FleetPosture
