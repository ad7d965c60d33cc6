import FleetPosture.Proofs.Ssh.Packet
import FleetPosture.Proofs.Text.Base64
import FleetPosture.Ssh.HostKeys
import Mathlib.Data.List.Induction

/-! The keys of a server as its connections give them, one after another: a connection that fails
changes nothing, and a key that is there already is not taken again. Each key is one that the server
sent. -/

namespace FleetPosture.Ssh

open Text (Bytes)
open Net (StreamEnd)

section EraseDups

variable {α : Type} [DecidableEq α]

theorem eraseDups_concat (xs : List α) (x : α) :
    (xs ++ [x]).eraseDups = if x ∈ xs then xs.eraseDups else xs.eraseDups ++ [x] := by
  rw [List.eraseDups_append, List.removeAll, List.filter_singleton]
  by_cases old : x ∈ xs
  · simp [old]
  · simp [old, List.eraseDups_cons]

theorem filter_eraseDups (p : α → Bool) (xs : List α) :
    xs.eraseDups.filter p = (xs.filter p).eraseDups := by
  induction xs using List.reverseRecOn with
  | nil => rfl
  | append_singleton xs x ih =>
    rw [eraseDups_concat, List.filter_append, List.filter_singleton]
    by_cases old : x ∈ xs <;> by_cases hp : p x
    · simp [old, hp, ih, eraseDups_concat]
    · simp [old, hp, ih]
    · simp [old, hp, ih, eraseDups_concat]
    · simp [old, hp, ih]

end EraseDups

section Collected

/-- What connections for keys come to, one after another, and the keys that there are by then. -/
inductive Collected : List (Except Fault HostKey) → List HostKey → Prop
  | start : Collected [] []
  | failed {results : List (Except Fault HostKey)} {keys : List HostKey} (f : Fault)
      (before : Collected results keys) : Collected (results ++ [.error f]) keys
  | found {results : List (Except Fault HostKey)} {keys : List HostKey} {key : HostKey}
      (new : key ∉ keys) (before : Collected results keys) :
      Collected (results ++ [.ok key]) (keys ++ [key])
  | again {results : List (Except Fault HostKey)} {keys : List HostKey} {key : HostKey}
      (old : key ∈ keys) (before : Collected results keys) : Collected (results ++ [.ok key]) keys

theorem Collected.keys_eq {results : List (Except Fault HostKey)} {keys : List HostKey}
    (h : Collected results keys) : keys = (results.filterMap Except.toOption).eraseDups := by
  have step (results : List (Except Fault HostKey)) (key : HostKey) :
      (results ++ [Except.ok key]).filterMap Except.toOption =
        results.filterMap Except.toOption ++ [key] := by
    rw [List.filterMap_append]
    rfl
  induction h with
  | start => rfl
  | failed f before ih =>
    rw [List.filterMap_append, ih]
    exact congrArg _ (List.append_nil _).symm
  | found new before ih =>
    rw [ih, List.mem_eraseDups] at new
    rw [step, eraseDups_concat, if_neg new, ih]
  | again old before ih =>
    rw [ih, List.mem_eraseDups] at old
    rw [step, eraseDups_concat, if_pos old, ih]

theorem collected_eraseDups (results : List (Except Fault HostKey)) :
    Collected results (results.filterMap Except.toOption).eraseDups := by
  induction results using List.reverseRecOn with
  | nil => exact .start
  | append_singleton results r ih =>
    rw [List.filterMap_append]
    rcases r with f | key
    · exact (List.append_nil (results.filterMap Except.toOption)).symm ▸ .failed f ih
    · show Collected (results ++ [.ok key]) (results.filterMap Except.toOption ++ [key]).eraseDups
      rw [eraseDups_concat]
      split_ifs with old
      · exact .again (List.mem_eraseDups.2 old) ih
      · exact .found (mt List.mem_eraseDups.1 old) ih

theorem Collected.filter_eq {before after : List (Except Fault HostKey)} {r : Except Fault HostKey}
    {keys others : List HostKey} (h : Collected (before ++ r :: after) keys)
    (without : Collected (before ++ after) others) :
    keys.filter (r ≠ .ok ·) = others.filter (r ≠ .ok ·) := by
  have own : ([r].filterMap Except.toOption).filter (r ≠ .ok ·) = [] := by
    rcases r with f | key
    · rfl
    · exact List.filter_eq_nil_iff.2 fun k hk => by simp_all [Except.toOption]
  rw [h.keys_eq, without.keys_eq, filter_eraseDups, filter_eraseDups, ← List.singleton_append,
    List.filterMap_append, List.filterMap_append, List.filterMap_append, List.filter_append,
    List.filter_append, List.filter_append, own, List.nil_append]

end Collected

section Sent

/-- The stream has a reply to a key exchange in it whose first field is the key, which begins with
its type. -/
def Carries (stream : Bytes) (key : HostKey) : Prop :=
  ∃ (front behind : Bytes) (reply : Packet) (blob more type rest : Bytes),
    stream = front ++ reply.bytes ++ behind ∧
      reply.payload = 31 :: Wire.field 4 blob ++ more ∧
      blob = Wire.field 4 type ++ rest ∧ key.keyType = Text.utf8Lossy type ∧
      Text.base64Decode key.key.toList = some blob

theorem exists_blob_of_readKey {content : Bytes} {key : HostKey} (h : readKey content = .ok key) :
    ∃ blob more type rest, content = Wire.field 4 blob ++ more ∧ blob = Wire.field 4 type ++ rest ∧
      key = ⟨Text.utf8Lossy type, Text.base64 blob⟩ := by
  unfold readKey at h
  split at h
  · exact absurd h nofun
  · next blob more hb =>
    split at h
    · exact absurd h nofun
    · next type rest ht =>
      exact ⟨blob, more, type, rest, Wire.eq_append_of_field? hb, Wire.eq_append_of_field? ht,
        (Except.ok.inj h).symm⟩

theorem exists_content_of_judgeReply {payload : Bytes} {key : HostKey}
    (h : judgeReply payload = some (.ok key)) :
    ∃ content, payload = exchangeReplyMessage :: content ∧ readKey content = .ok key := by
  unfold judgeReply at h
  split at h
  · exact absurd h nofun
  · next kind content =>
    split_ifs at h with reply disconnect
    · exact ⟨content, by rw [reply], Option.some.inj h⟩
    · exact absurd (Option.some.inj h) nofun

theorem carries_of_await {ending : StreamEnd} {stream rest : Bytes} {n : Nat} {key : HostKey}
    (h : await ending judgeReply (stream.drop n) = .ok (key, rest)) : Carries stream key := by
  obtain ⟨passed, reply, split, -, decided⟩ := exists_awaited h
  obtain ⟨content, payload, read⟩ := exists_content_of_judgeReply decided
  obtain ⟨blob, more, type, behind, rfl, hb, rfl⟩ := exists_blob_of_readKey read
  refine ⟨stream.take n ++ passed.flatMap Packet.bytes, rest, reply, blob, more, type, behind, ?_,
    payload, hb, rfl, ?_⟩
  · have whole := (List.take_append_drop n stream).symm
    rw [split] at whole
    simpa only [List.append_assoc] using whole
  · rw [Text.base64, String.toList_ofList]
    exact Text.base64Decode_base64Chars blob

theorem carries_of_keyExchange {peer : Peer} {family : List String} {r : Randoms} {key : HostKey}
    (h : (keyExchange peer family r).result = .ok key) :
    Carries (peer (keyExchange peer family r).sent).1 key := by
  unfold keyExchange at h ⊢
  cases hl : readLists (peer clientVersion).2 (peer clientVersion).1 with
  | error f =>
    simp only [hl] at h
    exact absurd h nofun
  | ok lists =>
    obtain ⟨server, rest⟩ := lists
    simp only [hl] at h ⊢
    cases ho : clientOffer server family r with
    | error f =>
      simp only [ho] at h
      exact absurd h nofun
    | ok offer =>
      simp only [ho] at h ⊢
      rcases awaited : await (peer (clientVersion ++ offer)).2 judgeReply _ with f | ⟨found, after⟩
      · rw [awaited] at h
        exact absurd h nofun
      · rw [awaited] at h
        obtain rfl := Except.ok.inj h
        exact carries_of_await awaited

end Sent

section Scan

variable (endpoint : Net.Endpoint) (dial : Nat → Except Net.ConnectError Peer)
  (randoms : Nat → Randoms)

def attempt (number : Nat) (family : List String) : List Bytes × Except Fault HostKey :=
  connected (keyExchange · family (randoms number)) (dial number)

def attempts (families : List (List String)) : List (List Bytes × Except Fault HostKey) :=
  families.mapIdx fun i family => attempt dial randoms (i + 1) family

theorem familiesOf_eq (server : KexInit) :
    familiesOf server = keyFamilies.filter fun family => ∃ name ∈ family, name ∈ server.hostKeys := by
  unfold familiesOf
  refine List.filter_congr fun family _ => Bool.eq_iff_iff.2 ?_
  simp

variable {dial}

theorem scanHostKeys_of_fault {fault : Fault} (unlisted : (connected listing (dial 0)).2 = .error fault) :
    scanHostKeys endpoint dial randoms =
      ((connected listing (dial 0)).1, .error (fault.toFailure endpoint)) := by
  unfold scanHostKeys
  rw [← Prod.eta (connected listing (dial 0)), unlisted]

theorem scanHostKeys_of_lists {server : KexInit}
    (listed : (connected listing (dial 0)).2 = .ok server) :
    scanHostKeys endpoint dial randoms =
      ((connected listing (dial 0)).1 ++ (attempts dial randoms (familiesOf server)).flatMap (·.1),
        .ok ((attempts dial randoms (familiesOf server)).filterMap (·.2.toOption)).eraseDups) := by
  unfold scanHostKeys
  rw [← Prod.eta (connected listing (dial 0)), listed]
  rfl

variable {randoms}

theorem exists_peer_of_attempt {number : Nat} {family : List String} {key : HostKey}
    (h : (attempt dial randoms number family).2 = .ok key) :
    ∃ peer, dial number = .ok peer ∧ (keyExchange peer family (randoms number)).result = .ok key := by
  unfold attempt at h
  rcases hd : dial number with e | peer
  · rw [hd] at h
    cases e <;> exact absurd h nofun
  · rw [hd] at h
    exact ⟨peer, rfl, h⟩

theorem exists_of_mem_attempts {families : List (List String)}
    {a : List Bytes × Except Fault HostKey} (h : a ∈ attempts dial randoms families) :
    ∃ i family, families[i]? = some family ∧ attempt dial randoms (i + 1) family = a := by
  obtain ⟨i, hi, rfl⟩ := List.mem_mapIdx.1 h
  exact ⟨i, families[i], List.getElem?_eq_getElem hi, rfl⟩

theorem attempts_congr {dial' : Nat → Except Net.ConnectError Peer} {families : List (List String)}
    (same : ∀ i ≤ families.length, dial' i = dial i) :
    attempts dial' randoms families = attempts dial randoms families := by
  unfold attempts
  refine List.ext_getElem (by simp) fun i hi _ => ?_
  rw [List.length_mapIdx] at hi
  rw [List.getElem_mapIdx, List.getElem_mapIdx, attempt, attempt, same (i + 1) hi]

end Scan

/-- A scan fails exactly if its first connection does. After that it makes one connection for each
family of which the server has a name, and no other; its keys are collected from these in their order,
each being one that the server sent there, and a connection has no say on the keys of others. -/
theorem scanHostKeys_exact (endpoint : Net.Endpoint) (dial : Nat → Except Net.ConnectError Peer)
    (randoms : Nat → Randoms) :
    ((∃ failure, (scanHostKeys endpoint dial randoms).2 = .error failure) ↔
        ∃ fault, (connected listing (dial 0)).2 = .error fault) ∧
      ∀ server, (connected listing (dial 0)).2 = .ok server →
        ∃ families made keys,
          families = keyFamilies.filter (fun family => ∃ name ∈ family, name ∈ server.hostKeys) ∧
          made = attempts dial randoms families ∧
          scanHostKeys endpoint dial randoms =
            ((connected listing (dial 0)).1 ++ made.flatMap (·.1), .ok keys) ∧
          (∀ dial', (∀ i ≤ families.length, dial' i = dial i) →
            scanHostKeys endpoint dial' randoms = scanHostKeys endpoint dial randoms) ∧
          Collected (made.map (·.2)) keys ∧
          (∀ before a after others, made = before ++ a :: after →
            Collected ((before ++ after).map (·.2)) others →
              keys.filter (a.2 ≠ .ok ·) = others.filter (a.2 ≠ .ok ·)) ∧
          ∀ key ∈ keys, ∃ i family peer, families[i]? = some family ∧ dial (i + 1) = .ok peer ∧
            (keyExchange peer family (randoms (i + 1))).result = .ok key ∧
            Carries (peer (keyExchange peer family (randoms (i + 1))).sent).1 key := by
  constructor
  · rcases first : (connected listing (dial 0)).2 with fault | server
    · rw [scanHostKeys_of_fault endpoint randoms first]
      exact ⟨fun _ => ⟨fault, rfl⟩, fun _ => ⟨fault.toFailure endpoint, rfl⟩⟩
    · rw [scanHostKeys_of_lists endpoint randoms first]
      exact ⟨fun ⟨_, h⟩ => absurd h nofun, fun ⟨_, h⟩ => absurd h nofun⟩
  · intro server listed
    have collected : Collected ((attempts dial randoms (familiesOf server)).map (·.2))
        ((attempts dial randoms (familiesOf server)).filterMap (·.2.toOption)).eraseDups := by
      have results := collected_eraseDups ((attempts dial randoms (familiesOf server)).map (·.2))
      rwa [List.filterMap_map] at results
    refine ⟨familiesOf server, _, _, familiesOf_eq server, rfl,
      scanHostKeys_of_lists endpoint randoms listed, fun dial' same => ?_, collected,
      fun before a after others made without => ?_, fun key hkey => ?_⟩
    · have first : dial' 0 = dial 0 := same 0 (Nat.zero_le _)
      have listed' : (connected listing (dial' 0)).2 = .ok server := first ▸ listed
      rw [scanHostKeys_of_lists endpoint randoms listed, scanHostKeys_of_lists endpoint randoms listed',
        attempts_congr same, first]
    · rw [made, List.map_append, List.map_cons] at collected
      rw [List.map_append] at without
      exact made ▸ collected.filter_eq without
    · obtain ⟨a, ha, given⟩ := List.mem_filterMap.1 (List.mem_eraseDups.1 hkey)
      obtain ⟨i, family, at_i, rfl⟩ := exists_of_mem_attempts ha
      have result : (attempt dial randoms (i + 1) family).2 = .ok key := by
        rcases h : (attempt dial randoms (i + 1) family).2 with f | k
        · rw [h] at given
          exact absurd given nofun
        · rw [h] at given
          rw [Option.some.inj given]
      obtain ⟨peer, dialled, exchanged⟩ := exists_peer_of_attempt result
      exact ⟨i, family, peer, at_i, dialled, exchanged, carries_of_keyExchange exchanged⟩

end FleetPosture.Ssh
