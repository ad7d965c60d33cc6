import FleetPosture.Proofs.Tls.ServerHello

/-! A server that reads a ClientHello strictly, each length exact and each block to its last byte,
finds the one suite and the one version that are offered, and each extension once. -/

namespace FleetPosture.Tls

open Text (Bytes)

inductive ClientExtension
  | serverName (names : List (UInt8 × Bytes))
  | groups (codes : List UInt16)
  | pointFormats (formats : Bytes)
  | signatureAlgorithms (codes : List UInt16)
  | supportedVersions (codes : List UInt16)
  | keyShare (shares : List (UInt16 × Bytes))
  | renegotiation (verification : Bytes)
  | other (kind : UInt16) (content : Bytes)
deriving DecidableEq, Repr

namespace ClientExtension

def kind : ClientExtension → UInt16
  | serverName _ => 0x0000
  | groups _ => 0x000a
  | pointFormats _ => 0x000b
  | signatureAlgorithms _ => 0x000d
  | supportedVersions _ => 0x002b
  | keyShare _ => 0x0033
  | renegotiation _ => 0xff01
  | other kind _ => kind

end ClientExtension

structure ReceivedHello where
  recordVersion : UInt16
  version : UInt16
  nonce : Bytes
  session : Bytes
  suites : List UInt16
  compressions : Bytes
  extensions : Option (List ClientExtension)
deriving DecidableEq, Repr

namespace ReceivedHello

def code? (bs : Bytes) : Option (UInt16 × Bytes) := do
  let (code, rest) ← Wire.take? 2 bs
  some (ServerHello.code code, rest)

def name? : Bytes → Option ((UInt8 × Bytes) × Bytes)
  | [] => none
  | kind :: rest => do
    let (name, rest) ← Wire.field? 2 rest
    some ((kind, name), rest)

def share? (bs : Bytes) : Option ((UInt16 × Bytes) × Bytes) := do
  let (group, rest) ← code? bs
  let (key, rest) ← Wire.field? 2 rest
  some ((group, key), rest)

def extension? (bs : Bytes) : Option (Extension × Bytes) := do
  let (kind, rest) ← code? bs
  let (content, rest) ← Wire.field? 2 rest
  some (⟨kind, content⟩, rest)

def understood? (e : Extension) : Option ClientExtension :=
  match e.kind with
  | 0x0000 => (Wire.list? 2 name? e.content).map .serverName
  | 0x000a => (Wire.list? 2 code? e.content).map .groups
  | 0x000b => (Wire.whole? (Wire.field? 1 e.content)).map .pointFormats
  | 0x000d => (Wire.list? 2 code? e.content).map .signatureAlgorithms
  | 0x002b => (Wire.list? 1 code? e.content).map .supportedVersions
  | 0x0033 => (Wire.list? 2 share? e.content).map .keyShare
  | 0xff01 => (Wire.whole? (Wire.field? 1 e.content)).map .renegotiation
  | kind => some (.other kind e.content)

def ending? (bs : Bytes) : Option (Option (List ClientExtension)) :=
  if bs.isEmpty then some none
  else do some (some (← (← Wire.list? 2 extension? bs).mapM understood?))

def ofBody? (recordVersion : UInt16) (body : Bytes) : Option ReceivedHello := do
  let (version, rest) ← code? body
  let (nonce, rest) ← Wire.take? 32 rest
  let (session, rest) ← Wire.field? 1 rest
  let (suites, rest) ← Wire.field? 2 rest
  let suites ← Wire.items? code? suites
  let (compressions, rest) ← Wire.field? 1 rest
  let extensions ← ending? rest
  some { recordVersion, version, nonce, session, suites, compressions, extensions }

def ofMessage? (recordVersion : UInt16) : Bytes → Option ReceivedHello
  | [] => none
  | kind :: rest => do
    let body ← Wire.whole? (Wire.field? 3 rest)
    if kind = 1 then ofBody? recordVersion body else none

def ofRecord? : Bytes → Option ReceivedHello
  | [] => none
  | kind :: rest => do
    let (recordVersion, rest) ← code? rest
    let message ← Wire.whole? (Wire.field? 2 rest)
    if kind = 0x16 then ofMessage? recordVersion message else none

end ReceivedHello

namespace ClientExtension

def nameEntry (entry : UInt8 × Bytes) : Bytes := entry.1 :: Wire.field 2 entry.2

def shareEntry (share : UInt16 × Bytes) : Bytes :=
  ClientHello.code share.1 ++ Wire.field 2 share.2

theorem length_nameEntry (entry : UInt8 × Bytes) :
    (nameEntry entry).length = 3 + entry.2.length := by
  rw [nameEntry, List.length_cons, Wire.length_field]
  omega

theorem length_shareEntry (share : UInt16 × Bytes) :
    (shareEntry share).length = 4 + share.2.length := by
  rw [shareEntry, List.length_append, ClientHello.length_code, Wire.length_field]
  omega

def raw : ClientExtension → Extension
  | serverName names => ⟨0x0000, Wire.field 2 (names.flatMap nameEntry)⟩
  | groups codes => ⟨0x000a, ClientHello.codes codes⟩
  | pointFormats formats => ⟨0x000b, Wire.field 1 formats⟩
  | signatureAlgorithms codes => ⟨0x000d, ClientHello.codes codes⟩
  | supportedVersions codes => ⟨0x002b, Wire.field 1 (codes.flatMap ClientHello.code)⟩
  | keyShare shares => ⟨0x0033, Wire.field 2 (shares.flatMap shareEntry)⟩
  | renegotiation verification => ⟨0xff01, Wire.field 1 verification⟩
  | other kind content => ⟨kind, content⟩

def block (es : List ClientExtension) : Bytes := (es.map raw).flatMap Extension.encoded

theorem block_append (es fs : List ClientExtension) : block (es ++ fs) = block es ++ block fs := by
  unfold block
  rw [List.map_append, List.flatMap_append]

theorem block_singleton (e : ClientExtension) : block [e] = e.raw.encoded := List.append_nil _

/-- The inner list is short enough for its length, and `other` is none of the rest. -/
def Fits : ClientExtension → Prop
  | serverName names => (names.flatMap nameEntry).length < 256 ^ 2
  | groups codes | signatureAlgorithms codes => (codes.flatMap ClientHello.code).length < 256 ^ 2
  | pointFormats formats => formats.length < 256 ^ 1
  | supportedVersions codes => (codes.flatMap ClientHello.code).length < 256 ^ 1
  | keyShare shares => (shares.flatMap shareEntry).length < 256 ^ 2
  | renegotiation verification => verification.length < 256 ^ 1
  | other kind _ => kind ∉ [0x0000, 0x000a, 0x000b, 0x000d, 0x002b, 0x0033, 0xff01]

instance : DecidablePred Fits
  | serverName _ | groups _ | pointFormats _ | signatureAlgorithms _ | supportedVersions _
  | keyShare _ | renegotiation _ => inferInstanceAs (Decidable (_ < _))
  | other _ _ => inferInstanceAs (Decidable (¬ _))

end ClientExtension

namespace ReceivedHello

theorem code?_code (n : UInt16) (rest : Bytes) :
    code? (ClientHello.code n ++ rest) = some (n, rest) := by
  unfold code?
  rw [Wire.take?_append_of_length (ClientHello.length_code n)]
  simp only [Option.bind_eq_bind, Option.bind_some, ServerHello.code_code]

theorem codes?_flatMap_code (ns : List UInt16) :
    Wire.items? code? (ns.flatMap ClientHello.code) = some ns := by
  apply Wire.items?_flatMap
  · exact fun n _ => code?_code n
  · exact fun n _ => List.ne_nil_of_length_pos (by rw [ClientHello.length_code]; decide)

theorem names?_flatMap_nameEntry {names : List (UInt8 × Bytes)}
    (fits : (names.flatMap ClientExtension.nameEntry).length < 256 ^ 2) :
    Wire.items? name? (names.flatMap ClientExtension.nameEntry) = some names := by
  apply Wire.items?_flatMap
  · intro entry member rest
    have within : _ ≤ (names.flatMap ClientExtension.nameEntry).length :=
      Wire.length_le_length_flatMap member
    rw [ClientExtension.length_nameEntry] at within
    have small : entry.2.length < 256 ^ 2 := by omega
    rw [ClientExtension.nameEntry, List.cons_append, name?, Wire.field?_append small]
    rfl
  · exact fun _ _ => List.cons_ne_nil _ _

theorem shares?_flatMap_shareEntry {shares : List (UInt16 × Bytes)}
    (fits : (shares.flatMap ClientExtension.shareEntry).length < 256 ^ 2) :
    Wire.items? share? (shares.flatMap ClientExtension.shareEntry) = some shares := by
  apply Wire.items?_flatMap
  · intro share member rest
    have within : _ ≤ (shares.flatMap ClientExtension.shareEntry).length :=
      Wire.length_le_length_flatMap member
    rw [ClientExtension.length_shareEntry] at within
    have small : share.2.length < 256 ^ 2 := by omega
    rw [ClientExtension.shareEntry, List.append_assoc, share?, code?_code]
    simp only [Option.bind_eq_bind, Option.bind_some, Wire.field?_append small]
  · intro share _
    apply List.ne_nil_of_length_pos
    rw [ClientExtension.length_shareEntry]
    omega

theorem extension?_encoded {e : Extension} (fits : e.content.length < 256 ^ 2) (rest : Bytes) :
    extension? (e.encoded ++ rest) = some (e, rest) := by
  unfold extension? Extension.encoded ClientHello.extension
  rw [List.append_assoc, code?_code]
  simp only [Option.bind_eq_bind, Option.bind_some, Wire.field?_append fits]

end ReceivedHello

open ReceivedHello

theorem ClientExtension.understood?_raw {e : ClientExtension} (fits : e.Fits) :
    understood? e.raw = some e := by
  cases e with
  | serverName names =>
    exact congrArg (Option.map serverName) (Wire.list?_field fits (names?_flatMap_nameEntry fits))
  | groups codes =>
    exact congrArg (Option.map groups) (Wire.list?_field fits (codes?_flatMap_code codes))
  | pointFormats formats =>
    exact congrArg (Option.map pointFormats) (Wire.whole?_field fits)
  | signatureAlgorithms codes =>
    exact congrArg (Option.map signatureAlgorithms)
      (Wire.list?_field fits (codes?_flatMap_code codes))
  | supportedVersions codes =>
    exact congrArg (Option.map supportedVersions)
      (Wire.list?_field fits (codes?_flatMap_code codes))
  | keyShare shares =>
    exact congrArg (Option.map keyShare) (Wire.list?_field fits (shares?_flatMap_shareEntry fits))
  | renegotiation verification =>
    exact congrArg (Option.map renegotiation) (Wire.whole?_field fits)
  | other kind content =>
    simp only [Fits, List.mem_cons, List.not_mem_nil, or_false, not_or] at fits
    simp [understood?, raw, fits]

theorem mapM_understood?_map_raw {es : List ClientExtension} (fits : ∀ e ∈ es, e.Fits) :
    (es.map ClientExtension.raw).mapM understood? = some es := by
  induction es with
  | nil => rfl
  | cons e es ih =>
    obtain ⟨head, tail⟩ := List.forall_mem_cons.1 fits
    rw [List.map_cons, List.mapM_cons, ClientExtension.understood?_raw head, ih tail]
    rfl

theorem ending?_block {es : List ClientExtension} (fits : ∀ e ∈ es, e.Fits)
    (small : (ClientExtension.block es).length < 256 ^ 2) :
    ending? (Wire.field 2 (ClientExtension.block es)) = some (some es) := by
  have read : Wire.items? extension? (ClientExtension.block es) =
      some (es.map ClientExtension.raw) := by
    apply Wire.items?_flatMap
    · exact fun e he => extension?_encoded (Extension.content_lt_of_mem small e he)
    · exact fun e _ => List.ne_nil_of_length_pos (by rw [e.length_encoded]; omega)
  unfold ending?
  rw [if_neg (by simp [Wire.field, Wire.bigEndian]), Wire.list?_field small read]
  simp only [Option.bind_eq_bind, Option.bind_some, mapM_understood?_map_raw fits]

structure HelloRandoms.Sized (r : HelloRandoms) : Prop where
  nonce : r.nonce.length = 32
  sessionId : r.sessionId.length = 32
  keyShare : r.keyShare.length = 32

/-- The number of a version in a hello, where the newest goes by that of the one before it. -/
def ReceivedHello.numberOf : ProtocolVersion → UInt16
  | .ssl30 => 0x0300
  | .tls10 => 0x0301
  | .tls11 => 0x0302
  | .tls12 => 0x0303
  | .tls13 => 0x0303

theorem ProtocolVersion.helloCode_eq (v : ProtocolVersion) :
    v.helloCode = ReceivedHello.numberOf v := by
  cases v <;> decide

/-- The hello offers one version and one suite, in the extensions that the version has. -/
structure ReceivedHello.IsOffer (hello : ReceivedHello) (v : ProtocolVersion) (suite : UInt16)
    (name : Option String) (r : HelloRandoms) : Prop where
  suites : hello.suites = [suite]
  compressions : hello.compressions = [0]
  version : hello.version = numberOf v
  nonce : hello.nonce = r.nonce
  session : hello.session = if v = .tls13 then r.sessionId else []
  bare : hello.extensions = none ↔ v = .ssl30
  once : ∀ es ∈ hello.extensions, (es.map ClientExtension.kind).Nodup
  named : ∀ es ∈ hello.extensions, ∀ names,
    .serverName names ∈ es ↔ ∃ n, name = some n ∧ names = [(0, Text.utf8 n)]
  versions : ∀ es ∈ hello.extensions, ∀ codes,
    .supportedVersions codes ∈ es ↔ v = .tls13 ∧ codes = [0x0304]
  keyed : ∀ es ∈ hello.extensions, ∀ shares,
    .keyShare shares ∈ es ↔ v = .tls13 ∧ shares = [(0x001d, r.keyShare)]

namespace ClientHello

variable {v : ProtocolVersion} {suite : UInt16} {name : Option String} {r : HelloRandoms}

def offeredName (name : Option String) : List ClientExtension :=
  name.toList.map fun n => .serverName [(0, Text.utf8 n)]

def offered (v : ProtocolVersion) (name : Option String) (r : HelloRandoms) :
    List ClientExtension :=
  offeredName name ++ [.groups groups] ++ [.pointFormats [0]] ++
    (if v.isAtLeast .tls12 then [.signatureAlgorithms signatureAlgorithms] else []) ++
    [.renegotiation []] ++
    if v = .tls13 then [.supportedVersions [0x0304], .keyShare [(x25519, r.keyShare)]] else []

theorem serverName_eq_block (n : String) :
    serverName n = ClientExtension.block (offeredName (some n)) := by
  have list : [((0 : UInt8), Text.utf8 n)].flatMap ClientExtension.nameEntry =
      0 :: Wire.field 2 (Text.utf8 n) := List.append_nil _
  calc serverName n
      = (ClientExtension.serverName [(0, Text.utf8 n)]).raw.encoded := by
        rw [ClientExtension.raw, list]
        rfl
    _ = ClientExtension.block (offeredName (some n)) := (ClientExtension.block_singleton _).symm

theorem extensions_eq_block (v : ProtocolVersion) (name : Option String) (r : HelloRandoms) :
    extensions v name r = ClientExtension.block (offered v name r) := by
  have shares : [(x25519, r.keyShare)].flatMap ClientExtension.shareEntry =
      code x25519 ++ Wire.field 2 r.keyShare := List.append_nil _
  have newest :
      ClientExtension.block [.supportedVersions [0x0304], .keyShare [(x25519, r.keyShare)]] =
      extension 0x002b [2, 0x03, 0x04] ++
        extension 0x0033 (Wire.field 2 (code x25519 ++ Wire.field 2 r.keyShare)) := by
    rw [← List.singleton_append, ClientExtension.block_append, ClientExtension.block_singleton,
      ClientExtension.block_singleton, ClientExtension.raw, ClientExtension.raw, shares]
    rfl
  unfold extensions offered
  simp only [ClientExtension.block_append, apply_ite ClientExtension.block,
    ClientExtension.block_singleton, newest]
  cases name with
  | none => rfl
  | some n => rw [← serverName_eq_block]; rfl

theorem length_offered_le (short : ∀ n ∈ name, (Text.utf8 n).length ≤ 65000) (sized : r.Sized) :
    (ClientExtension.block (offered v name r)).length ≤ 65115 := by
  have named : (ClientExtension.block (offeredName name)).length ≤ 65009 := by
    cases name with
    | none => exact Nat.zero_le _
    | some n =>
      have := short n rfl
      rw [← serverName_eq_block, serverName, extension, List.length_append, length_code,
        Wire.length_field, Wire.length_field, List.length_cons, Wire.length_field]
      omega
  have fixed : (ClientExtension.block [.groups groups]).length +
      (ClientExtension.block [.pointFormats [0]]).length +
      (ClientExtension.block [.renegotiation []]).length = 29 := rfl
  have signed : (ClientExtension.block
      (if v.isAtLeast .tls12 then [.signatureAlgorithms signatureAlgorithms]
      else [])).length ≤ 28 := by
    split <;> decide
  have keyed : (ClientExtension.block [.keyShare [(x25519, r.keyShare)]]).length = 42 := by
    rw [ClientExtension.block_singleton, Extension.length_encoded, ClientExtension.raw,
      Wire.length_field, List.flatMap_singleton, ClientExtension.length_shareEntry, sized.keyShare]
  have newest : (ClientExtension.block
      (if v = .tls13 then [.supportedVersions [0x0304], .keyShare [(x25519, r.keyShare)]]
      else [])).length ≤ 49 := by
    split
    · have stated : (ClientExtension.block [.supportedVersions [0x0304]]).length = 7 := rfl
      rw [← List.singleton_append, ClientExtension.block_append, List.length_append]
      omega
    · exact Nat.zero_le _
  simp only [offered, ClientExtension.block_append, List.length_append]
  omega

theorem mem_offered {e : ClientExtension} :
    e ∈ offered v name r ↔
      (∃ n, name = some n ∧ e = .serverName [(0, Text.utf8 n)]) ∨
      e = .groups groups ∨
      e = .pointFormats [0] ∨
      (v.isAtLeast .tls12 ∧ e = .signatureAlgorithms signatureAlgorithms) ∨
      e = .renegotiation [] ∨
      (v = .tls13 ∧ (e = .supportedVersions [0x0304] ∨ e = .keyShare [(x25519, r.keyShare)])) := by
  simp only [offered, offeredName, List.mem_append, List.mem_map, Option.mem_toList, or_assoc,
    List.mem_ite_nil_right, List.mem_cons, List.not_mem_nil, or_false, eq_comm]

theorem fits_of_mem_offered (short : ∀ n ∈ name, (Text.utf8 n).length ≤ 65000) (sized : r.Sized) :
    ∀ e ∈ offered v name r, e.Fits := by
  intro e he
  rcases mem_offered.1 he with ⟨n, hn, rfl⟩ | rfl | rfl | ⟨-, rfl⟩ | rfl | ⟨-, rfl | rfl⟩
  · have := short n hn
    rw [ClientExtension.Fits, List.flatMap_singleton, ClientExtension.length_nameEntry]
    dsimp only
    omega
  · decide
  · decide
  · decide
  · decide
  · decide
  · rw [ClientExtension.Fits, List.flatMap_singleton, ClientExtension.length_shareEntry,
      sized.keyShare]
    decide

theorem nodup_kind_offered (v : ProtocolVersion) (name : Option String) (r : HelloRandoms) :
    ((offered v name r).map ClientExtension.kind).Nodup := by
  have named : List.Sublist ((offeredName name).map ClientExtension.kind) [0x0000] := by
    cases name with
    | none => exact List.nil_sublist _
    | some n => exact List.Sublist.refl _
  have signed : List.Sublist
      ((if v.isAtLeast .tls12 then [ClientExtension.signatureAlgorithms signatureAlgorithms]
        else []).map ClientExtension.kind) [0x000d] := by
    split
    · exact List.Sublist.refl _
    · exact List.nil_sublist _
  have newest : List.Sublist
      ((if v = .tls13 then
          [ClientExtension.supportedVersions [0x0304], .keyShare [(x25519, r.keyShare)]]
        else []).map ClientExtension.kind) [0x002b, 0x0033] := by
    split
    · exact List.Sublist.refl _
    · exact List.nil_sublist _
  -- whatever is left out, the kinds keep this order
  have all : List.Sublist ((offered v name r).map ClientExtension.kind)
      ([0x0000] ++ [0x000a] ++ [0x000b] ++ [0x000d] ++ [0xff01] ++ [0x002b, 0x0033]) := by
    unfold offered
    simp only [List.map_append]
    refine .append ?_ newest
    refine .append ?_ (.refl _)
    refine .append ?_ signed
    exact (named.append (.refl _)).append (.refl _)
  exact all.nodup (by decide)

theorem ofBody?_body (recordVersion : UInt16) (v : ProtocolVersion) (suite : UInt16)
    (short : ∀ n ∈ name, (Text.utf8 n).length ≤ 65000) (sized : r.Sized) :
    ofBody? recordVersion (body v suite name r) = some
      { recordVersion
        version := v.helloCode
        nonce := r.nonce
        session := if v = .tls13 then r.sessionId else []
        suites := [suite]
        compressions := [0]
        extensions := if v = .ssl30 then none else some (offered v name r) } := by
  have session : (if v = .tls13 then r.sessionId else []).length < 256 ^ 1 := by
    have := sized.sessionId
    split
    · omega
    · decide
  have compressions : ([1, 0] : Bytes) = Wire.field 1 [0] := rfl
  have single : ([suite].flatMap code).length < 256 ^ 2 := by
    rw [List.flatMap_singleton, length_code]
    decide
  have ends : ending? (if v = .ssl30 then [] else Wire.field 2 (extensions v name r)) =
      some (if v = .ssl30 then none else some (offered v name r)) := by
    split
    · rfl
    · have small := length_offered_le (v := v) short sized
      rw [extensions_eq_block]
      exact ending?_block (fits_of_mem_offered short sized) (by omega)
  unfold body
  simp only [List.append_assoc]
  rw [ofBody?, code?_code, compressions]
  simp only [Option.bind_eq_bind, Option.bind_some, Wire.take?_append_of_length sized.nonce,
    Wire.field?_append session, codes, Wire.field?_append single, codes?_flatMap_code,
    Wire.field?_append (show ([0] : Bytes).length < 256 ^ 1 by decide), ends]

theorem length_body_le (short : ∀ n ∈ name, (Text.utf8 n).length ≤ 65000) (sized : r.Sized) :
    (body v suite name r).length ≤ 65190 := by
  have session : (Wire.field 1 (if v = .tls13 then r.sessionId else [])).length ≤ 33 := by
    have := sized.sessionId
    rw [Wire.length_field]
    split
    · omega
    · decide
  have ends : (if v = .ssl30 then [] else Wire.field 2 (extensions v name r)).length ≤ 65117 := by
    split
    · exact Nat.zero_le _
    · have := length_offered_le (v := v) short sized
      rw [Wire.length_field, extensions_eq_block]
      omega
  have suites : (codes [suite]).length = 4 := rfl
  unfold body
  simp only [List.length_append, length_code, sized.nonce, suites, List.length_cons,
    List.length_nil]
  omega

theorem ofRecord?_eq_ofBody? (small : (body v suite name r).length ≤ 65190) :
    ofRecord? (record v suite name r) =
      ofBody? (if v = .ssl30 then 0x0300 else 0x0301) (body v suite name r) := by
  have whole : (body v suite name r).length < 256 ^ 3 := by omega
  have message : (1 :: Wire.field 3 (body v suite name r)).length < 256 ^ 2 := by
    rw [List.length_cons, Wire.length_field]
    omega
  unfold record
  rw [List.cons_append, ofRecord?, code?_code]
  simp only [Option.bind_eq_bind, Option.bind_some, Wire.whole?_field message]
  rw [if_pos trivial, ofMessage?, Wire.whole?_field whole]
  rfl

/-- A server that reads strictly finds the offer as it is made, and each extension once. -/
theorem ofRecord?_record (v : ProtocolVersion) (suite : UInt16)
    (short : ∀ n ∈ name, (Text.utf8 n).length ≤ 65000) (sized : r.Sized) :
    ∃ hello, ofRecord? (record v suite name r) = some hello ∧ hello.IsOffer v suite name r := by
  have read := (ofRecord?_eq_ofBody? (length_body_le short sized)).trans
    (ofBody?_body (if v = .ssl30 then 0x0300 else 0x0301) v suite short sized)
  have listed : ∀ es ∈ (if v = .ssl30 then none else some (offered v name r)),
      es = offered v name r := by
    intro es h
    split at h
    · cases h
    · exact (Option.some.inj h).symm
  refine ⟨_, read, rfl, rfl, v.helloCode_eq, rfl, rfl, ?bare, ?once, ?named, ?versions, ?keyed⟩
  case bare =>
    dsimp only
    split <;> simp_all
  case once =>
    intro es h
    rw [listed es h]
    exact nodup_kind_offered v name r
  case named =>
    intro es h names
    rw [listed es h]
    simp [mem_offered]
  case versions =>
    intro es h codes
    rw [listed es h]
    simp [mem_offered]
  case keyed =>
    intro es h shares
    rw [listed es h]
    simp [mem_offered, x25519]

theorem ofRecord?_record_named :
    (∀ n ∈ some "host.example", (Text.utf8 n).length ≤ 65000) ∧ HelloRandoms.zero.Sized ∧
      (∃ hello es, ofRecord? (record .tls13 0x1301 (some "host.example") .zero) = some hello ∧
        hello.extensions = some es ∧ hello.version = 0x0303 ∧
        .serverName [(0, Text.utf8 "host.example")] ∈ es ∧ .supportedVersions [0x0304] ∈ es) ∧
      (∃ hello es, ofRecord? (record .tls10 0x002f (some "host.example") .zero) = some hello ∧
        hello.extensions = some es ∧ hello.version = 0x0301 ∧
        .serverName [(0, Text.utf8 "host.example")] ∈ es ∧ .supportedVersions [0x0304] ∉ es) ∧
      ∃ hello, ofRecord? (record .ssl30 0x0005 (some "host.example") .zero) = some hello ∧
        hello.extensions = none ∧ hello.version = 0x0300 := by
  have short : ∀ n ∈ some "host.example", (Text.utf8 n).length ≤ 65000 := by
    rintro _ ⟨⟩
    decide
  have sized : HelloRandoms.zero.Sized := ⟨rfl, rfl, rfl⟩
  have extended {hello : ReceivedHello} {v : ProtocolVersion} {suite : UInt16}
      (offer : hello.IsOffer v suite (some "host.example") .zero) (later : v ≠ .ssl30) :
      ∃ es, hello.extensions = some es :=
    Option.ne_none_iff_exists'.1 fun h => later (offer.bare.1 h)
  refine ⟨short, sized, ?newest, ?older, ?oldest⟩
  case newest =>
    obtain ⟨hello, read, offer⟩ := ofRecord?_record .tls13 0x1301 short sized
    obtain ⟨es, extensions⟩ := extended offer (by decide)
    exact ⟨hello, es, read, extensions, offer.version,
      (offer.named es extensions _).2 ⟨_, rfl, rfl⟩, (offer.versions es extensions _).2 ⟨rfl, rfl⟩⟩
  case older =>
    obtain ⟨hello, read, offer⟩ := ofRecord?_record .tls10 0x002f short sized
    obtain ⟨es, extensions⟩ := extended offer (by decide)
    exact ⟨hello, es, read, extensions, offer.version,
      (offer.named es extensions _).2 ⟨_, rfl, rfl⟩,
      fun h => nomatch ((offer.versions es extensions _).1 h).1⟩
  case oldest =>
    obtain ⟨hello, read, offer⟩ := ofRecord?_record .ssl30 0x0005 short sized
    exact ⟨hello, read, offer.bare.2 rfl, offer.version⟩

end ClientHello
end FleetPosture.Tls
