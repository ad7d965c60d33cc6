import FleetPosture.Proofs.Text.Pieces
import FleetPosture.Proofs.Text.Utf8
import FleetPosture.Proofs.Wire.Fields
import FleetPosture.Ssh.KexInit
import Mathlib.Data.List.Flatten

/-! The lists of algorithms on the wire. Whatever bytes a server sends, the names that are read from
them hold no comma and are not empty, and their text is no longer than what was read; lists of such
names are read back as they were written. So the answer to a server is read with the names that the
client chose and with all other lists of the server. -/

namespace FleetPosture.Ssh.KexInit

open Text (Bytes)

def IsName (name : String) : Prop := name ≠ "" ∧ ',' ∉ name.toList

instance (name : String) : Decidable (IsName name) := inferInstanceAs (Decidable (_ ∧ _))

structure IsListed (names : List String) : Prop where
  isName : ∀ name ∈ names, IsName name
  fits : (Text.utf8 (Text.join "," names)).length < 256 ^ 4

section Names

variable {names : List String} {text name : String}

theorem toList_join : (Text.join "," names).toList = [','].intercalate (names.map String.toList) :=
  String.toList_intercalate

theorem map_toList_namesOf :
    (namesOf text).map String.toList =
      (Text.pieces (· == ',') text.toList).filter fun word => !word.isEmpty := by
  rw [namesOf, List.map_map]
  simp [Function.comp_def]

theorem namesOf_join (h : ∀ name ∈ names, IsName name) : namesOf (Text.join "," names) = names := by
  cases names with
  | nil => rfl
  | cons first more =>
    have apart : ∀ word ∈ (first :: more).map String.toList, ∀ c ∈ word, (c == ',') = false := by
      intro word hword c hc
      obtain ⟨name, listed, rfl⟩ := List.mem_map.1 hword
      rw [beq_eq_false_iff_ne]
      rintro rfl
      exact (h name listed).2 hc
    have nonempty : ∀ word ∈ (first :: more).map String.toList, (!word.isEmpty) = true := by
      intro word hword
      obtain ⟨name, listed, rfl⟩ := List.mem_map.1 hword
      have some_char : name.toList ≠ [] := mt String.toList_eq_nil_iff.1 (h name listed).1
      simpa using some_char
    refine List.map_injective_iff.2 (fun _ _ => String.toList_inj.1) ?_
    rw [map_toList_namesOf, toList_join, Text.pieces_intercalate apart rfl (List.cons_ne_nil _ _),
      List.filter_eq_self.2 nonempty]

theorem isName_of_mem_namesOf (h : name ∈ namesOf text) : IsName name := by
  obtain ⟨word, hword, rfl⟩ := List.mem_map.1 h
  obtain ⟨piece, nonempty⟩ := List.mem_filter.1 hword
  constructor
  · intro empty
    rw [← String.toList_eq_nil_iff, String.toList_ofList] at empty
    rw [empty] at nonempty
    exact absurd nonempty nofun
  · intro comma
    rw [String.toList_ofList] at comma
    exact absurd (Text.not_of_mem_pieces piece ',' comma) (by decide)

theorem length_join_namesOf_le (text : String) :
    (Text.utf8 (Text.join "," (namesOf text))).length ≤ (Text.utf8 text).length := by
  let words := Text.pieces (· == ',') text.toList
  have kept : (words.filter fun word => !word.isEmpty).Sublist words := List.filter_sublist
  have part := Text.intercalate_sublist kept [',']
  rw [Text.intercalate_pieces, ← map_toList_namesOf, ← toList_join] at part
  exact (part.flatMap String.utf8EncodeChar).length_le

end Names

section Lists

variable {names : List String} {lists : List (List String)} {s rest : Bytes}

theorem nameList?_listField (listed : IsListed names) (rest : Bytes) :
    nameList? (listField names ++ rest) = some (names, rest) := by
  have decoded := Text.utf8Decode_utf8 (Text.join "," names)
  rw [nameList?, listField, Wire.field?_append listed.fits]
  simp only [Option.bind_eq_bind, Option.bind_some, decoded, namesOf_join listed.isName]

theorem isListed_of_nameList? (h : nameList? s = some (names, rest)) : IsListed names := by
  obtain ⟨⟨content, after⟩, read, named⟩ := Option.bind_eq_some_iff.1 h
  dsimp only at named
  split at named
  case h_1 text decoded =>
    obtain ⟨rfl, -⟩ := Prod.mk.inj (Option.some.inj named)
    have bytes : content = Text.utf8 text := Text.utf8Decode_eq_ok_iff.1 decoded
    have short := Wire.length_lt_of_field? read
    rw [bytes] at short
    exact ⟨fun _ => isName_of_mem_namesOf, Nat.lt_of_le_of_lt (length_join_namesOf_le text) short⟩
  case h_2 => exact absurd named nofun

theorem nameLists?_flatMap (listed : ∀ names ∈ lists, IsListed names) (rest : Bytes) :
    nameLists? lists.length (lists.flatMap listField ++ rest) = some lists := by
  induction lists with
  | nil => rfl
  | cons names lists ih =>
    obtain ⟨first, others⟩ := List.forall_mem_cons.1 listed
    rw [List.length_cons, nameLists?, List.flatMap_cons, List.append_assoc,
      nameList?_listField first]
    simp only [Option.bind_eq_bind, Option.bind_some, ih others]

theorem isListed_of_nameLists? {n : Nat} (h : nameLists? n s = some lists) :
    lists.length = n ∧ ∀ names ∈ lists, IsListed names := by
  induction n generalizing s lists with
  | zero =>
    obtain rfl : [] = lists := Option.some.inj h
    exact ⟨rfl, List.forall_mem_nil _⟩
  | succ n ih =>
    obtain ⟨⟨names, after⟩, read, h⟩ := Option.bind_eq_some_iff.1 h
    obtain ⟨others, read_others, h⟩ := Option.bind_eq_some_iff.1 h
    obtain rfl : names :: others = lists := Option.some.inj h
    obtain ⟨length, listed⟩ := ih read_others
    exact ⟨congrArg (· + 1) length, List.forall_mem_cons.2 ⟨isListed_of_nameList? read, listed⟩⟩

end Lists

section Message

def lists (k : KexInit) : List (List String) := k.keyExchanges :: k.hostKeys :: k.others

/-- The ten lists of a message, each of which fits its field. -/
structure IsWhole (k : KexInit) : Prop where
  ten : k.lists.length = 10
  listed : ∀ names ∈ k.lists, IsListed names

variable {k : KexInit} {received cookie : Bytes}

theorem payload_eq (k : KexInit) (cookie : Bytes) :
    k.payload cookie =
      kexInitMessage :: cookie ++ (k.lists.flatMap listField ++ [0, 0, 0, 0, 0]) := by
  simp only [payload, lists, List.flatMap_cons, List.append_assoc, List.cons_append]

theorem parse?_payload (whole : k.IsWhole) (sixteen : cookie.length = 16) :
    parse? (k.payload cookie) = some k := by
  have head : (kexInitMessage :: cookie).length = 17 := by rw [List.length_cons, sixteen]
  have read := nameLists?_flatMap whole.listed [0, 0, 0, 0, 0]
  rw [whole.ten] at read
  rw [parse?, payload_eq, Wire.take?_append_of_length head]
  simp only [Option.bind_eq_bind, Option.bind_some, read]
  rfl

theorem isWhole_of_parse? (h : parse? received = some k) : k.IsWhole := by
  obtain ⟨⟨head, rest⟩, -, h⟩ := Option.bind_eq_some_iff.1 h
  obtain ⟨lists, read, h⟩ := Option.bind_eq_some_iff.1 h
  obtain ⟨ten, listed⟩ := isListed_of_nameLists? read
  split at h
  case h_1 keyExchanges hostKeys others =>
    obtain rfl := Option.some.inj h
    exact ⟨ten, listed⟩
  case h_2 => exact absurd h nofun

theorem IsWhole.answer (whole : k.IsWhole) {keyExchange : String} {hostKeys : List String}
    (exchange : IsListed [keyExchange]) (keys : IsListed hostKeys) :
    (k.answer keyExchange hostKeys).IsWhole := by
  obtain ⟨ten, listed⟩ := whole
  obtain ⟨-, listed⟩ := List.forall_mem_cons.1 listed
  obtain ⟨-, others⟩ := List.forall_mem_cons.1 listed
  exact ⟨ten, List.forall_mem_cons.2 ⟨exchange, List.forall_mem_cons.2 ⟨keys, others⟩⟩⟩

/-- The answer to any message that can be read is read with the chosen names in the first two lists
and the other eight as they were. -/
theorem parse?_answer (read : parse? received = some k) {keyExchange : String}
    (exchange : IsName keyExchange) (exchange_fits : (Text.utf8 keyExchange).length < 2 ^ 32)
    {hostKeys : List String} (keys : ∀ name ∈ hostKeys, IsName name)
    (keys_fit : (Text.utf8 (Text.join "," hostKeys)).length < 2 ^ 32)
    (sixteen : cookie.length = 16) :
    parse? ((k.answer keyExchange hostKeys).payload cookie) =
        some ⟨[keyExchange], hostKeys, k.others⟩ ∧
      k.others.length = 8 := by
  have whole := isWhole_of_parse? read
  have alone : Text.join "," [keyExchange] = keyExchange := String.intercalate_singleton
  have chosen : IsListed [keyExchange] :=
    ⟨List.forall_mem_singleton.2 exchange, by rw [alone]; exact exchange_fits⟩
  have offered : IsListed hostKeys := ⟨keys, keys_fit⟩
  have eight : k.others.length + 2 = 10 := whole.ten
  exact ⟨parse?_payload (whole.answer chosen offered) sixteen, by omega⟩

def looseMessage : Bytes :=
  let texts := [",,curve25519-sha256", "ssh-ed25519,,clé-hôte,", "aes128-ctr,",
    ",aes256-gcm@openssh.com", ",", "hmac-sha2-256", "none,zlib", "none", "", ",,"]
  kexInitMessage :: List.replicate 16 0xff ++
    texts.flatMap (fun text => Wire.field 4 (Text.utf8 text)) ++ [1, 2]

def looseLists : KexInit where
  keyExchanges := ["curve25519-sha256"]
  hostKeys := ["ssh-ed25519", "clé-hôte"]
  others := [["aes128-ctr"], ["aes256-gcm@openssh.com"], [], ["hmac-sha2-256"], ["none", "zlib"],
    ["none"], [], []]

theorem parse?_answer_loose :
    let cookie : Bytes := List.replicate 16 9
    let exchange := "curve25519-sha256"
    let keys := ["clé-hôte", "ssh-rsa"]
    (parse? looseMessage = some looseLists ∧ IsName exchange ∧ (∀ name ∈ keys, IsName name) ∧
        (Text.utf8 exchange).length < 2 ^ 32 ∧
        (Text.utf8 (Text.join "," keys)).length < 2 ^ 32 ∧ cookie.length = 16) ∧
      parse? ((looseLists.answer exchange keys).payload cookie) =
        some ⟨[exchange], keys, looseLists.others⟩ ∧
      looseLists.others.length = 8 := by
  intro cookie exchange keys
  have read : parse? looseMessage = some looseLists := by decide +kernel
  have exchange_is : IsName exchange := by decide
  have keys_are : ∀ name ∈ keys, IsName name := by decide
  have exchange_fits : (Text.utf8 exchange).length < 2 ^ 32 := by decide
  have keys_fit : (Text.utf8 (Text.join "," keys)).length < 2 ^ 32 := by decide
  exact ⟨⟨read, exchange_is, keys_are, exchange_fits, keys_fit, rfl⟩,
    parse?_answer read exchange_is exchange_fits keys_are keys_fit rfl⟩

end Message

end FleetPosture.Ssh.KexInit
