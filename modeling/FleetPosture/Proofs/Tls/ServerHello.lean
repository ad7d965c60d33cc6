import FleetPosture.Proofs.Wire.Fields
import FleetPosture.Tls.ClientHello
import FleetPosture.Tls.ServerHello

/-! A ServerHello is read as it was sent: the suite, and the version of the last extension that
states one. Whatever the other extensions hold, they do not count. -/

namespace FleetPosture.Tls

open Text (Bytes)

theorem ServerHello.code_code (n : UInt16) : code (ClientHello.code n) = n := by
  have fits : n.toNat < 256 ^ 2 := n.toNat_lt
  unfold ServerHello.code ClientHello.code
  rw [Wire.number_bigEndian_of_lt fits, UInt16.ofNat_toNat]

theorem ServerHello.toNat_code (high low : UInt8) :
    (code [high, low]).toNat = 256 * high.toNat + low.toNat := by
  have value : Wire.number [high, low] = 256 * high.toNat + low.toNat := by
    simp [Wire.number, Nat.mul_comm]
  have small : 256 * high.toNat + low.toNat < 2 ^ 16 := by
    have := high.toNat_lt
    have := low.toNat_lt
    omega
  unfold code
  rw [value, UInt16.toNat_ofNat', Nat.mod_eq_of_lt small]

theorem ClientHello.length_code (n : UInt16) : (code n).length = 2 :=
  Wire.length_bigEndian 2 n.toNat

structure Extension where
  kind : UInt16
  content : Bytes
deriving DecidableEq, Repr

namespace Extension

def encoded (e : Extension) : Bytes := ClientHello.extension e.kind e.content

def StatesVersion (e : Extension) : Prop :=
  e.kind = 0x002b ∧ e.content.length = 2

instance (e : Extension) : Decidable e.StatesVersion := inferInstanceAs (Decidable (_ ∧ _))

def version? (e : Extension) : Option UInt16 :=
  if e.StatesVersion then some (ServerHello.code e.content) else none

theorem getD_version? (e : Extension) (version : UInt16) :
    e.version?.getD version =
      if e.kind = ServerHello.supportedVersions ∧ e.content.length = 2 then
        ServerHello.code e.content
      else version := by
  unfold version?
  by_cases states : e.StatesVersion
  · rw [if_pos states, Option.getD_some]
    exact (if_pos states).symm
  · rw [if_neg states, Option.getD_none]
    exact (if_neg states).symm

theorem version?_eq_none_iff {e : Extension} : e.version? = none ↔ ¬ e.StatesVersion := by
  unfold version?
  split_ifs with h <;> simp [h]

theorem length_encoded (e : Extension) : e.encoded.length = 4 + e.content.length := by
  unfold encoded ClientHello.extension
  rw [List.length_append, ClientHello.length_code, Wire.length_field]
  omega

theorem content_lt_of_mem {es : List Extension} (small : (es.flatMap encoded).length < 256 ^ 2) :
    ∀ e ∈ es, e.content.length < 256 ^ 2 := by
  intro e he
  have part : e.encoded.length ≤ (es.flatMap encoded).length := Wire.length_le_length_flatMap he
  rw [length_encoded] at part
  omega

end Extension

structure SentHello where
  version : UInt16
  nonce : Bytes
  session : Bytes
  suite : UInt16
  compression : UInt8
  extensions : Option (List Extension)
  nonce_length : nonce.length = 32
  session_length : session.length ≤ 255
  extensions_length : ∀ es ∈ extensions, (es.flatMap Extension.encoded).length ≤ 65535

namespace SentHello

def listed (h : SentHello) : List Extension := h.extensions.getD []

def body (h : SentHello) : Bytes :=
  ClientHello.code h.version ++ h.nonce ++ Wire.field 1 h.session ++ ClientHello.code h.suite ++
    h.compression ::
      match h.extensions with
      | none => []
      | some es => Wire.field 2 (es.flatMap Extension.encoded)

/-- The version of the last extension that states one, else the hello's own. -/
def chosenVersion (h : SentHello) : UInt16 :=
  (h.listed.filterMap Extension.version?).getLast?.getD h.version

end SentHello

namespace ServerHello

theorem extendedVersion_short {version : UInt16} {bs : Bytes} (h : bs.length < 4) :
    extendedVersion version bs = some version := by
  rw [extendedVersion]
  rintro a b c d rest rfl
  simp at h
  omega

theorem extendedVersion_cons {version : UInt16} {a b c d : UInt8} {rest : Bytes} :
    extendedVersion version (a :: b :: c :: d :: rest) =
      match Wire.take? (Wire.number [c, d]) rest with
      | none => none
      | some (content, after) =>
        extendedVersion
          (if code [a, b] = supportedVersions ∧ content.length = 2 then code content else version)
          after := by
  rw [extendedVersion]
  split <;> next h => rw [h]

theorem extendedVersion_encoded_append (version : UInt16) {e : Extension}
    (fits : e.content.length < 256 ^ 2) (rest : Bytes) :
    extendedVersion version (e.encoded ++ rest) =
      extendedVersion (e.version?.getD version) rest := by
  obtain ⟨a, b, kind⟩ := List.length_eq_two.1 (ClientHello.length_code e.kind)
  obtain ⟨c, d, length⟩ := List.length_eq_two.1 (Wire.length_bigEndian 2 e.content.length)
  have read : code [a, b] = e.kind := by rw [← kind, code_code]
  have counted : Wire.number [c, d] = e.content.length := by
    rw [← length, Wire.number_bigEndian_of_lt fits]
  have layout : e.encoded ++ rest = a :: b :: c :: d :: (e.content ++ rest) := by
    unfold Extension.encoded ClientHello.extension Wire.field
    rw [kind, length]
    simp
  rw [layout, extendedVersion_cons, counted, Wire.take?_append, read]
  dsimp only
  rw [Extension.getD_version?]

theorem extendedVersion_encoded (version : UInt16) {es : List Extension}
    (fits : ∀ e ∈ es, e.content.length < 256 ^ 2) :
    extendedVersion version (es.flatMap Extension.encoded) =
      some ((es.filterMap Extension.version?).getLast?.getD version) := by
  -- the version stated so far is what the rest falls back on
  induction es generalizing version with
  | nil => exact extendedVersion_short (Nat.zero_lt_succ 3)
  | cons e es ih =>
    obtain ⟨head, tail⟩ := List.forall_mem_cons.1 fits
    rw [List.flatMap_cons, extendedVersion_encoded_append version head, ih _ tail]
    cases stated : e.version? with
    | none => rw [List.filterMap_cons_none stated, Option.getD_none]
    | some w => rw [List.filterMap_cons_some stated, List.getLast?_cons]; rfl

def choice? (version : UInt16) (rest : Bytes) : Option ServerHello := do
  let (suite, rest) ← Wire.take? 2 rest
  match Wire.take? 2 (rest.drop 1) with
  | none => some ⟨version, code suite⟩
  | some (length, rest) =>
    let (extensions, _) ← Wire.take? (Wire.number length) rest
    some ⟨← extendedVersion version extensions, code suite⟩

theorem parse?_eq_choice? (body : Bytes) :
    parse? body = (do
      let (version, rest) ← Wire.take? 2 body
      let (_, rest) ← Wire.take? 32 rest
      let (_, rest) ← Wire.field? 1 rest
      choice? (code version) rest) := rfl

theorem choice?_bare (version suite : UInt16) (compression : UInt8) :
    choice? version (ClientHello.code suite ++ [compression]) = some ⟨version, suite⟩ := by
  unfold choice?
  rw [Wire.take?_append_of_length (ClientHello.length_code suite)]
  simp only [Option.bind_eq_bind, Option.bind_some, code_code]
  rfl

theorem choice?_extended (version suite : UInt16) (compression : UInt8) {block : Bytes}
    (fits : block.length < 256 ^ 2) (rest : Bytes) :
    choice? version (ClientHello.code suite ++ compression :: (Wire.field 2 block ++ rest)) =
      (extendedVersion version block).map (⟨·, suite⟩) := by
  unfold choice? Wire.field
  rw [Wire.take?_append_of_length (ClientHello.length_code suite)]
  simp only [Option.bind_eq_bind, Option.bind_some, code_code, List.drop_succ_cons, List.drop_zero,
    List.append_assoc, Wire.take?_append_of_length (Wire.length_bigEndian 2 block.length),
    Wire.number_bigEndian_of_lt fits, Wire.take?_append]
  cases extendedVersion version block <;> rfl

end ServerHello

namespace SentHello

/-- A hello that ends with its extensions may be followed by anything, but after one without them
more bytes would be taken for extensions. -/
theorem parse?_body_append (h : SentHello) {rest : Bytes} (ends : h.extensions = none → rest = []) :
    ServerHello.parse? (h.body ++ rest) = some ⟨h.chosenVersion, h.suite⟩ := by
  have session : h.session.length < 256 ^ 1 := Nat.lt_succ_of_le h.session_length
  have front (after : Bytes) :
      ServerHello.parse?
          (ClientHello.code h.version ++ (h.nonce ++ (Wire.field 1 h.session ++ after))) =
        ServerHello.choice? h.version after := by
    rw [ServerHello.parse?_eq_choice?,
      Wire.take?_append_of_length (ClientHello.length_code h.version)]
    simp only [Option.bind_eq_bind, Option.bind_some, Wire.take?_append_of_length h.nonce_length,
      Wire.field?_append session, ServerHello.code_code]
  unfold body chosenVersion listed
  cases block : h.extensions with
  | none =>
    rw [ends block, List.append_nil]
    simp only [List.append_assoc]
    rw [front]
    exact ServerHello.choice?_bare h.version h.suite h.compression
  | some es =>
    have small : (es.flatMap Extension.encoded).length < 256 ^ 2 :=
      Nat.lt_succ_of_le (h.extensions_length es block)
    simp only [List.append_assoc, List.cons_append]
    rw [front, ServerHello.choice?_extended h.version h.suite h.compression small,
      ServerHello.extendedVersion_encoded h.version (Extension.content_lt_of_mem small)]
    rfl

theorem chosenVersion_of_last {h : SentHello} {before after : List Extension} {high low : UInt8}
    (split : h.listed = before ++ ⟨0x002b, [high, low]⟩ :: after)
    (last : ∀ e ∈ after, ¬ e.StatesVersion) :
    h.chosenVersion = ServerHello.code [high, low] := by
  have stated : Extension.version? ⟨0x002b, [high, low]⟩ =
      some (ServerHello.code [high, low]) := if_pos ⟨rfl, rfl⟩
  have none_after : after.filterMap Extension.version? = [] := by
    rw [List.filterMap_eq_nil_iff]
    intro e he
    exact Extension.version?_eq_none_iff.2 (last e he)
  unfold chosenVersion
  rw [split, List.filterMap_append, List.filterMap_cons_some stated, none_after,
    List.getLast?_concat]
  rfl

theorem chosenVersion_of_none {h : SentHello} (none : ∀ e ∈ h.listed, ¬ e.StatesVersion) :
    h.chosenVersion = h.version := by
  have nothing : h.listed.filterMap Extension.version? = [] := by
    rw [List.filterMap_eq_nil_iff]
    intro e he
    exact Extension.version?_eq_none_iff.2 (none e he)
  unfold chosenVersion
  rw [nothing]
  rfl

/-- A ServerHello is read as it was sent: of its extensions only the last one that states a version
counts, and it may be followed by anything if it has a list of extensions. -/
theorem parse?_sent (h : SentHello) (rest : Bytes) (ends : h.extensions = none → rest = []) :
    ∃ version, ServerHello.parse? (h.body ++ rest) = some ⟨version, h.suite⟩ ∧
      (∀ before high low after,
        h.listed = before ++ ⟨0x002b, [high, low]⟩ :: after →
        (∀ e ∈ after, ¬ e.StatesVersion) → version.toNat = 256 * high.toNat + low.toNat) ∧
      ((∀ e ∈ h.listed, ¬ e.StatesVersion) → version = h.version) := by
  refine ⟨h.chosenVersion, h.parse?_body_append ends, ?_, chosenVersion_of_none⟩
  intro before high low after split last
  rw [chosenVersion_of_last split last, ServerHello.toNat_code]

def plain (version suite : UInt16) : SentHello where
  version := version
  nonce := List.replicate 32 0
  session := []
  suite := suite
  compression := 0
  extensions := none
  nonce_length := rfl
  session_length := Nat.zero_le _
  extensions_length := fun _ h => absurd h (by simp)

def superseding : SentHello where
  version := 0x0303
  nonce := List.replicate 32 7
  session := [1, 2, 3]
  suite := 0x1301
  compression := 0
  extensions := some [⟨0x002b, [3, 3]⟩, ⟨0xff01, [0]⟩,
    ⟨0x002b, [3, 4]⟩, ⟨0x002b, [2, 3, 3]⟩]
  nonce_length := rfl
  session_length := by decide
  extensions_length := by decide

theorem parse?_sent_superseding :
    (superseding.extensions = none → ([0xaa] : Bytes) = []) ∧
      ∃ version, ServerHello.parse? (superseding.body ++ [0xaa]) = some ⟨version, 0x1301⟩ ∧
        version.toNat = 0x0304 := by
  have ends : superseding.extensions = none → ([0xaa] : Bytes) = [] := by decide
  obtain ⟨version, parsed, last, -⟩ := parse?_sent superseding [0xaa] ends
  refine ⟨ends, version, parsed, last [⟨0x002b, [3, 3]⟩, ⟨0xff01, [0]⟩] 3 4
    [⟨0x002b, [2, 3, 3]⟩] rfl ?_⟩
  decide

end SentHello
end FleetPosture.Tls
