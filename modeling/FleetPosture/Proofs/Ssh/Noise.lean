import FleetPosture.Proofs.Ssh.Packet
import FleetPosture.Proofs.Text.Utf8
import FleetPosture.Ssh.HostKeys

/-! What a server may send besides what counts: lines before its version line, and packets of other
kinds than the one that is waited for. A connection to a server that sends more of these comes to the
same result, and the client sends the same on it. -/

namespace FleetPosture.Ssh

open Text (Bytes)
open Net (StreamEnd)

section Result

variable {α β γ : Type} {R : α → α → Prop} {Q : β → β → Prop} {x y : Except Fault α}

inductive SameUpTo (R : α → α → Prop) : Except Fault α → Except Fault α → Prop
  | failed (f : Fault) : SameUpTo R (.error f) (.error f)
  | done {a b : α} (related : R a b) : SameUpTo R (.ok a) (.ok b)

namespace SameUpTo

theorem refl (related : ∀ a, R a a) (x : Except Fault α) : SameUpTo R x x := by
  rcases x with f | a
  · exact .failed f
  · exact .done (related a)

theorem bind {f g : α → Except Fault β} (h : SameUpTo R x y)
    (next : ∀ a b, R a b → SameUpTo Q (f a) (g b)) : SameUpTo Q (x >>= f) (y >>= g) := by
  rcases h with f | related
  · exact .failed f
  · exact next _ _ related

theorem eq_error {f : Fault} (h : SameUpTo R (.error f) y) : y = .error f := by
  rcases h with _ | _
  rfl

theorem exists_ok {a : α} (h : SameUpTo R (.ok a) y) : ∃ b, y = .ok b ∧ R a b := by
  rcases h with _ | related
  exact ⟨_, rfl, related⟩

theorem map_eq {f : α → γ} (h : SameUpTo R x y) (same : ∀ a b, R a b → f b = f a) :
    y.map f = x.map f := by
  rcases h with _ | related
  · rfl
  · exact congrArg Except.ok (same _ _ related)

end SameUpTo

end Result

section Packets

inductive Stage
  | lists
  | reply

def Stage.awaited : Stage → UInt8
  | lists => 20
  | reply => 31

/-- A packet that is neither what is waited for nor the end of the connection. -/
def Packet.IsNoise (stage : Stage) (p : Packet) : Prop :=
  ∀ kind ∈ p.payload.head?, kind ≠ stage.awaited ∧ kind ≠ 1

def Stage.after (stage : Stage) (p : Packet) : Stage :=
  if p.payload.head? = some 20 then reply else stage

inductive NoisyPackets : Stage → Bytes → Bytes → Prop
  | same (stage : Stage) (s : Bytes) : NoisyPackets stage s s
  | added {stage : Stage} {s t : Bytes} (p : Packet) (noise : p.IsNoise stage)
      (rest : NoisyPackets stage s t) : NoisyPackets stage s (p.bytes ++ t)
  | kept {stage : Stage} {s t : Bytes} (p : Packet) (rest : NoisyPackets (stage.after p) s t) :
      NoisyPackets stage (p.bytes ++ s) (p.bytes ++ t)

variable {p : Packet} {s t : Bytes}

theorem judgeKexInit_noise (noise : p.IsNoise .lists) : judgeKexInit p.payload = none := by
  unfold judgeKexInit
  cases hk : p.payload.head? with
  | none => rfl
  | some kind =>
    obtain ⟨other, stays⟩ := noise kind hk
    dsimp only
    rw [if_neg (show kind ≠ kexInitMessage from other),
      if_neg (show kind ≠ disconnectMessage from stays)]

theorem judgeReply_noise (noise : p.IsNoise .reply) : judgeReply p.payload = none := by
  cases hp : p.payload with
  | nil => rfl
  | cons kind content =>
    obtain ⟨other, stays⟩ := noise kind (by rw [hp]; rfl)
    rw [judgeReply, if_neg (show kind ≠ exchangeReplyMessage from other),
      if_neg (show kind ≠ disconnectMessage from stays)]

theorem stage_after_of_judgeKexInit {k : KexInit}
    (listed : judgeKexInit p.payload = some (.ok k)) : Stage.lists.after p = .reply := by
  unfold judgeKexInit at listed
  rw [Stage.after]
  cases hk : p.payload.head? with
  | none =>
    rw [hk] at listed
    exact absurd listed nofun
  | some kind =>
    simp only [hk] at listed
    split at listed
    · next is => exact if_pos (congrArg some is)
    · split at listed
      · exact absurd (Option.some.inj listed) nofun
      · exact absurd listed nofun

theorem stage_after_of_passed (passed : judgeKexInit p.payload = none) :
    Stage.lists.after p = .lists := by
  rw [Stage.after, if_neg]
  intro is
  rw [judgeKexInit, is] at passed
  exact absurd passed (by simp [kexInitMessage])

theorem await_lists_noisy (ending : StreamEnd) (h : NoisyPackets .lists s t) :
    SameUpTo (fun x y => y.1 = x.1 ∧ NoisyPackets .reply x.2 y.2) (await ending judgeKexInit s)
      (await ending judgeKexInit t) := by
  generalize hstage : Stage.lists = stage at h
  induction h with
  | same _ s => exact .refl (fun x => ⟨rfl, .same .reply x.2⟩) _
  | added p noise _ ih =>
    subst hstage
    rw [await_of_passed (judgeKexInit_noise noise)]
    exact ih rfl
  | kept p rest ih =>
    subst hstage
    cases hj : judgeKexInit p.payload with
    | none =>
      rw [await_of_passed hj, await_of_passed hj]
      exact ih (stage_after_of_passed hj).symm
    | some r =>
      rw [await_of_decided hj, await_of_decided hj]
      rcases r with f | k
      · exact .failed f
      · rw [stage_after_of_judgeKexInit hj] at rest
        exact .done ⟨rfl, rest⟩

theorem await_reply_noisy (ending : StreamEnd) (h : NoisyPackets .reply s t) :
    (await ending judgeReply t).map (·.1) = (await ending judgeReply s).map (·.1) := by
  generalize hstage : Stage.reply = stage at h
  induction h with
  | same => rfl
  | added p noise _ ih =>
    subst hstage
    rw [await_of_passed (judgeReply_noise noise)]
    exact ih rfl
  | kept p rest ih =>
    subst hstage
    cases hj : judgeReply p.payload with
    | none =>
      rw [await_of_passed hj, await_of_passed hj]
      exact ih (by rw [Stage.after]; split <;> rfl)
    | some r =>
      rw [await_of_decided hj, await_of_decided hj]
      rcases r with f | k <;> rfl

end Packets

section Lines

def endLine (content : Bytes) : Bytes := content ++ [10]

def IsVersionLine (line : Bytes) : Prop :=
  ∃ text, Text.utf8Decode line = .ok text ∧ "SSH-".toList <+: text.toList

/-- The second stream is the first with lines of text before the version line and with noise between
the packets after it. The number is that of the version line among the lines of the second. -/
inductive NoisyLines : Nat → Bytes → Bytes → Prop
  | version {line s t : Bytes} (whole : 10 ∉ line) (is : IsVersionLine (endLine line))
      (packets : NoisyPackets .lists s t) : NoisyLines 1 (endLine line ++ s) (endLine line ++ t)
  | unended {line : Bytes} (whole : 10 ∉ line) (is : IsVersionLine line) : NoisyLines 1 line line
  | added {n : Nat} {s t : Bytes} (text : String) (whole : '\n' ∉ text.toList)
      (other : ¬ "SSH-".toList <+: text.toList) (rest : NoisyLines n s t) :
      NoisyLines (n + 1) s (endLine (Text.utf8 text) ++ t)
  | kept {n : Nat} {line s t : Bytes} (whole : 10 ∉ line) (other : ¬ IsVersionLine (endLine line))
      (rest : NoisyLines n s t) : NoisyLines (n + 1) (endLine line ++ s) (endLine line ++ t)

variable {line s t : Bytes} {ending : StreamEnd}

theorem cutLine?_eq_none (whole : newline ∉ line) : cutLine? line = none := by
  induction line with
  | nil => rfl
  | cons b line ih =>
    obtain ⟨other, whole⟩ := not_or.1 (List.mem_cons.not.1 whole)
    rw [cutLine?, if_neg (Ne.symm other), ih whole]
    rfl

theorem cutLine?_endLine (whole : newline ∉ line) (rest : Bytes) :
    cutLine? (endLine line ++ rest) = some (endLine line, rest) := by
  induction line with
  | nil => rfl
  | cons b line ih =>
    obtain ⟨other, whole⟩ := not_or.1 (List.mem_cons.not.1 whole)
    have shape : endLine (b :: line) ++ rest = b :: (endLine line ++ rest) := rfl
    rw [shape, cutLine?, if_neg (Ne.symm other), ih whole]
    rfl

theorem readLine_endLine (whole : newline ∉ line) (rest : Bytes) :
    readLine ending (endLine line ++ rest) = .ok (endLine line, rest) := by
  unfold readLine
  rw [cutLine?_endLine whole]

theorem readLine_unended (whole : newline ∉ line) (some_byte : line ≠ []) :
    readLine ending line = if ending = .closed then .ok (line, []) else .error .timedOut := by
  unfold readLine
  rw [cutLine?_eq_none whole]
  cases ending with
  | stalled => rfl
  | closed => exact if_neg (mt List.isEmpty_iff.1 some_byte)

theorem afterVersion_of_read {rest : Bytes} (read : readLine ending s = .ok (line, rest)) (n : Nat) :
    afterVersion ending (n + 1) s =
      (Text.utf8Decode line).mapError Fault.versionText >>= fun text =>
        if "SSH-".toList.isPrefixOf text.toList then .ok rest else afterVersion ending n rest := by
  rw [afterVersion, read]
  simp only [bind, Except.bind]
  cases Text.utf8Decode line <;> rfl

theorem afterVersion_of_version {rest : Bytes} (read : readLine ending s = .ok (line, rest))
    (is : IsVersionLine line) (n : Nat) : afterVersion ending (n + 1) s = .ok rest := by
  obtain ⟨text, decoded, starts⟩ := is
  rw [afterVersion_of_read read, decoded]
  exact if_pos (List.isPrefixOf_iff_prefix.2 starts)

theorem afterVersion_of_other {rest : Bytes} (read : readLine ending s = .ok (line, rest))
    (other : ¬ IsVersionLine line) (n : Nat) :
    afterVersion ending (n + 1) s =
      (Text.utf8Decode line).mapError Fault.versionText >>= fun _ => afterVersion ending n rest := by
  rw [afterVersion_of_read read]
  cases decoded : Text.utf8Decode line with
  | error fault => rfl
  | ok text =>
    refine if_neg fun starts => other ⟨text, decoded, ?_⟩
    exact List.isPrefixOf_iff_prefix.1 starts

theorem IsVersionLine.ne_nil (is : IsVersionLine line) : line ≠ [] := by
  rintro rfl
  obtain ⟨text, decoded, starts⟩ := is
  obtain rfl : "" = text := Except.ok.inj decoded
  exact absurd starts (by decide)

theorem afterVersion_unended (whole : newline ∉ line) (is : IsVersionLine line) (n : Nat) :
    afterVersion ending (n + 1) line = if ending = .closed then .ok [] else .error .timedOut := by
  have read (ending : StreamEnd) : readLine ending line =
      if ending = .closed then .ok (line, []) else .error .timedOut :=
    readLine_unended whole is.ne_nil
  cases ending with
  | stalled =>
    rw [afterVersion, read]
    rfl
  | closed => exact afterVersion_of_version (read .closed) is n

theorem utf8Decode_endLine (text : String) :
    Text.utf8Decode (endLine (Text.utf8 text)) = .ok (text ++ "\n") := by
  have line : endLine (Text.utf8 text) = Text.utf8 (text ++ "\n") := by
    rw [Text.utf8, Text.utf8, String.toList_append, List.flatMap_append]
    rfl
  rw [line, Text.utf8Decode_utf8]

theorem afterVersion_added {text : String} (whole : '\n' ∉ text.toList)
    (other : ¬ "SSH-".toList <+: text.toList) (n : Nat) (rest : Bytes) :
    afterVersion ending (n + 1) (endLine (Text.utf8 text) ++ rest) = afterVersion ending n rest := by
  have decoded := utf8Decode_endLine text
  have no_version : ¬ IsVersionLine (endLine (Text.utf8 text)) := by
    rintro ⟨text', decoded', starts⟩
    rw [decoded] at decoded'
    obtain rfl := Except.ok.inj decoded'
    rw [String.toList_append] at starts
    rcases List.prefix_concat_iff.1 starts with ends | starts
    · have last : '\n' ∈ "SSH-".toList := ends ▸ List.mem_append_right _ List.mem_cons_self
      exact absurd last (by decide)
    · exact other starts
  rw [afterVersion_of_other (readLine_endLine (Text.not_mem_utf8 (by decide) whole) rest) no_version,
    decoded]
  rfl

theorem afterVersion_noisy (ending : StreamEnd) {n a b : Nat} (h : NoisyLines n s t) (ha : n ≤ a)
    (hb : n ≤ b) :
    SameUpTo (NoisyPackets .lists) (afterVersion ending a s) (afterVersion ending b t) := by
  -- both counts allow the version line; the second is also used up by the lines that were added
  induction h generalizing a b with
  | @version line s t whole is packets =>
    obtain ⟨a, rfl⟩ := Nat.exists_eq_add_of_le' ha
    obtain ⟨b, rfl⟩ := Nat.exists_eq_add_of_le' hb
    rw [afterVersion_of_version (readLine_endLine whole s) is,
      afterVersion_of_version (readLine_endLine whole t) is]
    exact .done packets
  | unended whole is =>
    obtain ⟨a, rfl⟩ := Nat.exists_eq_add_of_le' ha
    obtain ⟨b, rfl⟩ := Nat.exists_eq_add_of_le' hb
    rw [afterVersion_unended whole is, afterVersion_unended whole is]
    exact .refl (NoisyPackets.same .lists) _
  | @added n s t text whole other _ ih =>
    obtain ⟨b, rfl⟩ : ∃ b', b = b' + 1 := ⟨b - 1, by omega⟩
    rw [afterVersion_added whole other]
    exact ih (by omega) (by omega)
  | @kept n line s t whole other _ ih =>
    obtain ⟨a, rfl⟩ : ∃ a', a = a' + 1 := ⟨a - 1, by omega⟩
    obtain ⟨b, rfl⟩ : ∃ b', b = b' + 1 := ⟨b - 1, by omega⟩
    rw [afterVersion_of_other (readLine_endLine whole s) other,
      afterVersion_of_other (readLine_endLine whole t) other]
    have goesOn := ih (a := a) (b := b) (by omega) (by omega)
    exact (SameUpTo.refl (fun _ => rfl) _).bind fun _ _ (_ : _ = _) => goesOn

end Lines

section Later

variable {ending : StreamEnd} {s rest : Bytes}

theorem cutLine?_append {line : Bytes} (h : cutLine? s = some (line, rest)) (more : Bytes) :
    cutLine? (s ++ more) = some (line, rest ++ more) := by
  induction s generalizing line with
  | nil => exact absurd h nofun
  | cons b s ih =>
    rw [cutLine?] at h
    rw [List.cons_append, cutLine?]
    split_ifs at h ⊢ with ends
    · obtain ⟨rfl, rfl⟩ := Prod.mk.inj (Option.some.inj h)
      rfl
    · obtain ⟨⟨line, after⟩, cut, same⟩ := Option.map_eq_some_iff.1 h
      obtain ⟨rfl, rfl⟩ := Prod.mk.inj same
      rw [ih cut]
      rfl

theorem append_of_cutLine? {line : Bytes} (h : cutLine? s = some (line, rest)) :
    s = line ++ rest := by
  induction s generalizing line with
  | nil => exact absurd h nofun
  | cons b s ih =>
    rw [cutLine?] at h
    split_ifs at h with ends
    · obtain ⟨rfl, rfl⟩ := Prod.mk.inj (Option.some.inj h)
      rfl
    · obtain ⟨⟨line, after⟩, cut, same⟩ := Option.map_eq_some_iff.1 h
      obtain ⟨rfl, rfl⟩ := Prod.mk.inj same
      rw [ih cut, List.cons_append]

theorem readLine_append {line : Bytes} (h : readLine ending s = .ok (line, rest)) (goesOn : rest ≠ []) :
    s = line ++ rest ∧
      ∀ later more, readLine later (s ++ more) = .ok (line, rest ++ more) := by
  unfold readLine at h
  split at h
  · next line' rest' cut =>
    obtain ⟨rfl, rfl⟩ := Prod.mk.inj (Except.ok.inj h)
    refine ⟨append_of_cutLine? cut, fun later more => ?_⟩
    unfold readLine
    rw [cutLine?_append cut more]
  · exact absurd h nofun
  · split at h
    · exact absurd h nofun
    · obtain ⟨-, rfl⟩ := Prod.mk.inj (Except.ok.inj h)
      exact absurd rfl goesOn

theorem afterVersion_nil (n : Nat) : afterVersion ending n [] ≠ .ok rest := by
  cases n with
  | zero => exact nofun
  | succ n => cases ending <;> exact nofun

theorem afterVersion_append {n : Nat} (h : afterVersion ending n s = .ok rest) (goesOn : rest ≠ []) :
    (∃ front, s = front ++ rest) ∧
      ∀ later more, afterVersion later n (s ++ more) = .ok (rest ++ more) := by
  induction n generalizing s with
  | zero => exact absurd h nofun
  | succ n ih =>
    cases read : readLine ending s with
    | error f =>
      rw [afterVersion, read] at h
      exact absurd h nofun
    | ok p =>
      obtain ⟨line, after⟩ := p
      by_cases is : IsVersionLine line
      · rw [afterVersion_of_version read is] at h
        obtain rfl := Except.ok.inj h
        obtain ⟨cut, read_later⟩ := readLine_append read goesOn
        exact ⟨⟨line, cut⟩, fun later more => afterVersion_of_version (read_later later more) is n⟩
      · rw [afterVersion_of_other read is] at h
        cases decoded : Text.utf8Decode line with
        | error fault =>
          rw [decoded] at h
          exact absurd h nofun
        | ok text =>
          have others : afterVersion ending n after = .ok rest := by
            rw [decoded] at h
            exact h
          have more_lines : after ≠ [] := by
            rintro rfl
            exact afterVersion_nil n others
          obtain ⟨cut, read_later⟩ := readLine_append read more_lines
          obtain ⟨⟨front, rfl⟩, goes_on⟩ := ih others
          refine ⟨⟨line ++ front, by rw [cut, List.append_assoc]⟩, fun later more => ?_⟩
          rw [afterVersion_of_other (read_later later more) is, decoded]
          exact goes_on later more

theorem readLists_append {server : KexInit} (h : readLists ending s = .ok (server, rest)) :
    (∃ front, s = front ++ rest) ∧
      ∀ later more, readLists later (s ++ more) = .ok (server, rest ++ more) := by
  cases hv : afterVersion ending maxPreambleLines s with
  | error f =>
    rw [readLists, hv] at h
    exact absurd h nofun
  | ok packets =>
    have listed : await ending judgeKexInit packets = .ok (server, rest) := by
      rw [readLists, hv] at h
      exact h
    obtain ⟨passed, p, rfl, -, -⟩ := exists_awaited listed
    have some_packet : passed.flatMap Packet.bytes ++ (p.bytes ++ rest) ≠ [] := by
      intro none
      have read := readPacket_bytes ending p rest
      rw [(List.append_eq_nil_iff.1 none).2] at read
      exact absurd read (by cases ending <;> exact nofun)
    obtain ⟨⟨front, rfl⟩, goes_on⟩ := afterVersion_append hv some_packet
    refine ⟨⟨front ++ (passed.flatMap Packet.bytes ++ p.bytes), by simp only [List.append_assoc]⟩,
      fun later more => ?_⟩
    rw [readLists, goes_on later more]
    exact await_append listed later more

end Later

section Exchange

inductive Noisy : Bytes → Bytes → Prop
  | same (s : Bytes) : Noisy s s
  | added {n : Nat} {s t : Bytes} (early : n ≤ 32) (lines : NoisyLines n s t) :
      Noisy s t

/-- Bytes that a server has sent stay sent, whatever it is sent after that. -/
def Steady (peer : Peer) : Prop := ∀ sent more, (peer sent).1 <+: (peer (sent ++ more)).1

structure Noisier (quiet noisy : Peer) : Prop where
  stream : ∀ sent, Noisy (quiet sent).1 (noisy sent).1
  ending : ∀ sent, (noisy sent).2 = (quiet sent).2

theorem readLists_noisy (ending : StreamEnd) {s t : Bytes} (h : Noisy s t) :
    SameUpTo (fun x y => y.1 = x.1 ∧ NoisyPackets .reply x.2 y.2) (readLists ending s)
      (readLists ending t) := by
  rcases h with _ | ⟨early, lines⟩
  · exact .refl (fun x => ⟨rfl, .same .reply x.2⟩) _
  · exact (afterVersion_noisy ending lines early early).bind fun _ _ =>
      await_lists_noisy ending

variable {peer : Peer} {server : KexInit} {rest : Bytes}

theorem readLists_after (steady : Steady peer)
    (h : readLists (peer clientVersion).2 (peer clientVersion).1 = .ok (server, rest)) (offer : Bytes) :
    readLists (peer (clientVersion ++ offer)).2 (peer (clientVersion ++ offer)).1 =
      .ok (server, (peer (clientVersion ++ offer)).1.drop
        ((peer clientVersion).1.length - rest.length)) := by
  obtain ⟨more, longer⟩ := steady clientVersion offer
  obtain ⟨⟨front, split⟩, goes_on⟩ := readLists_append h
  have read : (peer clientVersion).1.length - rest.length = front.length := by
    rw [split, List.length_append, Nat.add_sub_cancel]
  rw [read, ← longer, goes_on]
  rw [split, List.append_assoc, List.drop_left]

theorem keyExchange_of_fault {f : Fault} (family : List String) (r : Randoms)
    (h : readLists (peer clientVersion).2 (peer clientVersion).1 = .error f) :
    keyExchange peer family r = ⟨clientVersion, .error f⟩ := by
  unfold keyExchange
  simp only [h]

theorem keyExchange_unoffered {family : List String} {r : Randoms} {f : Fault}
    (h : readLists (peer clientVersion).2 (peer clientVersion).1 = .ok (server, rest))
    (unoffered : clientOffer server family r = .error f) :
    keyExchange peer family r = ⟨clientVersion, .error f⟩ := by
  unfold keyExchange
  simp only [h, unoffered]

theorem keyExchange_offered (steady : Steady peer) {family : List String} {r : Randoms} {offer : Bytes}
    (h : readLists (peer clientVersion).2 (peer clientVersion).1 = .ok (server, rest))
    (offered : clientOffer server family r = .ok offer) :
    ∃ later, readLists (peer (clientVersion ++ offer)).2 (peer (clientVersion ++ offer)).1 =
        .ok (server, later) ∧
      keyExchange peer family r = ⟨clientVersion ++ offer,
        (await (peer (clientVersion ++ offer)).2 judgeReply later).map (·.1)⟩ := by
  refine ⟨_, readLists_after steady h offer, ?_⟩
  unfold keyExchange
  simp only [h, offered]

end Exchange

/-- Noise changes neither what comes of a connection, for its lists or for the key of a family, nor
what the client sends on it. -/
theorem exchange_of_noisier {quiet noisy : Peer} (steady : Steady quiet) (steady' : Steady noisy)
    (noise : Noisier quiet noisy) :
    listing noisy = listing quiet ∧
      ∀ family r, keyExchange noisy family r = keyExchange quiet family r := by
  have lists (sent : Bytes) : SameUpTo (fun x y => y.1 = x.1 ∧ NoisyPackets .reply x.2 y.2)
      (readLists (quiet sent).2 (quiet sent).1) (readLists (noisy sent).2 (noisy sent).1) := by
    rw [noise.ending]
    exact readLists_noisy _ (noise.stream sent)
  constructor
  · have result : (readLists (noisy clientVersion).2 (noisy clientVersion).1).map (·.1) =
        (readLists (quiet clientVersion).2 (quiet clientVersion).1).map (·.1) :=
      (lists clientVersion).map_eq fun _ _ same => same.1
    exact congrArg (Outcome.mk clientVersion) result
  · intro family r
    have first := lists clientVersion
    cases hq : readLists (quiet clientVersion).2 (quiet clientVersion).1 with
    | error f =>
      rw [hq] at first
      rw [keyExchange_of_fault family r hq, keyExchange_of_fault family r first.eq_error]
    | ok p =>
      obtain ⟨server, rest⟩ := p
      rw [hq] at first
      obtain ⟨⟨server', rest'⟩, hn, same_server, -⟩ := first.exists_ok
      obtain rfl : server' = server := same_server
      cases ho : clientOffer server' family r with
      | error f => rw [keyExchange_unoffered hq ho, keyExchange_unoffered hn ho]
      | ok offer =>
        -- both replies are read from what each server sends in all, behind the lists
        obtain ⟨later, hq', exchanged⟩ := keyExchange_offered steady hq ho
        obtain ⟨later', hn', exchanged'⟩ := keyExchange_offered steady' hn ho
        have replies := lists (clientVersion ++ offer)
        rw [hq', hn'] at replies
        obtain ⟨_, same, ⟨-, packets⟩⟩ := replies.exists_ok
        obtain rfl := Except.ok.inj same
        rw [exchanged, exchanged', noise.ending, await_reply_noisy _ packets]

def answering (opening reply : Bytes) : Peer := fun sent =>
  if sent.length ≤ clientVersion.length then (opening, .stalled) else (opening ++ reply, .closed)

theorem steady_answering (opening reply : Bytes) : Steady (answering opening reply) := by
  intro sent more
  unfold answering
  by_cases early : sent.length ≤ clientVersion.length
  · rw [if_pos early]
    split_ifs
    · exact List.prefix_rfl
    · exact List.prefix_append opening reply
  · have late : ¬ (sent ++ more).length ≤ clientVersion.length := by
      rw [List.length_append]
      omega
    exact if_neg early ▸ if_neg late ▸ List.prefix_rfl

namespace Packet

def ofLists : Packet where
  payload := KexInit.payload ⟨["curve25519-sha256"], ["ssh-ed25519"], List.replicate 8 []⟩
    (List.replicate 16 0)
  padding := List.replicate 6 0
  padding_lt := by decide
  two_le := by decide
  le_max := by decide

def ofReply : Packet where
  payload := 31 ::
    Wire.field 4 (Wire.field 4 (Text.utf8 "ssh-ed25519") ++ Wire.field 4 [7, 7])
  padding := List.replicate 4 0
  padding_lt := by decide
  two_le := by decide
  le_max := by decide

def ignorable : Packet := ⟨[2], [], by decide, by decide, by decide⟩

def blank : Packet := ⟨[], List.replicate 40 1, by decide, by decide, by decide⟩

end Packet

theorem exchange_of_noisier_banner :
    let version := Text.utf8 "SSH-2.0-OpenSSH_9.6\r"
    let quiet := answering (endLine version ++ Packet.ofLists.bytes) Packet.ofReply.bytes
    let noisy := answering
      (endLine (Text.utf8 "Authorized use only\r") ++ (endLine version ++
        (Packet.ignorable.bytes ++ Packet.ofLists.bytes)))
      (Packet.blank.bytes ++ Packet.ofReply.bytes)
    (Steady quiet ∧ Steady noisy ∧ Noisier quiet noisy) ∧ listing noisy = listing quiet ∧
      ∀ family r, keyExchange noisy family r = keyExchange quiet family r := by
  intro version quiet noisy
  have steady := steady_answering (endLine version ++ Packet.ofLists.bytes) Packet.ofReply.bytes
  have steady' : Steady noisy := steady_answering _ _
  have whole : 10 ∉ version := by decide
  have is : IsVersionLine (endLine version) := ⟨_, utf8Decode_endLine _, by decide⟩
  have ignored : Packet.ignorable.IsNoise .lists := by
    rintro _ ⟨⟩
    decide
  have noise : Noisier quiet noisy := by
    refine ⟨fun sent => ?_, fun sent => ?_⟩
    · have banner {n : Nat} {s t : Bytes} (rest : NoisyLines n s t) :=
        NoisyLines.added "Authorized use only\r" (by decide) (by decide) rest
      show Noisy (answering _ _ sent).1 (answering _ _ sent).1
      unfold answering
      split_ifs
      · exact .added (by decide) (banner (.version whole is (.added _ ignored (.same _ _))))
      · simp only [List.append_assoc]
        exact .added (by decide) (banner (.version whole is (.added _ ignored
          (.kept _ (.added Packet.blank nofun (.same _ _))))))
    · show (answering _ _ sent).2 = (answering _ _ sent).2
      unfold answering
      split_ifs <;> rfl
  exact ⟨⟨steady, steady', noise⟩, exchange_of_noisier steady steady' noise⟩

end FleetPosture.Ssh
