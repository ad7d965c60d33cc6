import FleetPosture.Text.Utf8

/-! Reading undoes writing for text as bytes. The bytes of a character are read as that character
whatever follows them, so a text is found again character by character, and no other bytes are read
as it; a byte of the lower half is a character of its own; and the bytes of texts are ordered as the
texts are. -/

namespace FleetPosture.Text

deriving instance DecidableEq for Utf8Partial

theorem utf8Start_pair : ∀ lead < 32, 2 ≤ lead →
    utf8Start (UInt8.ofNat (lead + 192)) = some (.inr ⟨lead, 1, 1, 0x80, 0xbf⟩) := by
  decide

/-- The second byte is bounded from below after the first of these leads, which would otherwise begin
characters that have shorter encodings, and from above after the thirteenth, that of surrogates. -/
theorem utf8Start_triple : ∀ lead < 16, utf8Start (UInt8.ofNat (lead + 224)) =
    some (.inr ⟨lead, 1, 2, if lead = 0 then 0xa0 else 0x80, if lead = 13 then 0x9f else 0xbf⟩) := by
  decide

theorem utf8Start_quadruple : ∀ lead < 5, utf8Start (UInt8.ofNat (lead + 240)) =
    some (.inr ⟨lead, 1, 3, if lead = 0 then 0x90 else 0x80, if lead = 4 then 0x8f else 0xbf⟩) := by
  decide

section Tail

variable {p : Utf8Partial} {tail : Nat}

theorem toNat_tail (h : tail < 64) : (UInt8.ofNat (tail + 128)).toNat = tail + 128 := by
  rw [UInt8.toNat_ofNat']
  omega

theorem inRange_tail (h : tail < 64) (low : p.low.toNat ≤ tail + 128)
    (high : tail + 128 ≤ p.high.toNat) :
    p.low ≤ UInt8.ofNat (tail + 128) ∧ UInt8.ofNat (tail + 128) ≤ p.high := by
  simpa only [UInt8.le_iff_toNat_le, toNat_tail h] using ⟨low, high⟩

theorem utf8PiecesFrom_last (h : tail < 64) (low : p.low.toNat ≤ tail + 128)
    (high : tail + 128 ≤ p.high.toNat) (last : p.missing = 1) (rest : Bytes) :
    utf8PiecesFrom (some p) (UInt8.ofNat (tail + 128) :: rest) =
      .char (Char.ofNat (p.bits * 64 + tail)) :: utf8PiecesFrom none rest := by
  rw [utf8PiecesFrom, if_pos (inRange_tail h low high), if_pos last, toNat_tail h,
    Nat.add_sub_cancel]

theorem utf8PiecesFrom_more (h : tail < 64) (low : p.low.toNat ≤ tail + 128)
    (high : tail + 128 ≤ p.high.toNat) (more : p.missing ≠ 1) (rest : Bytes) :
    utf8PiecesFrom (some p) (UInt8.ofNat (tail + 128) :: rest) =
      utf8PiecesFrom (some ⟨p.bits * 64 + tail, p.seen + 1, p.missing - 1, 0x80, 0xbf⟩) rest := by
  rw [utf8PiecesFrom, if_pos (inRange_tail h low high), if_neg more, toNat_tail h,
    Nat.add_sub_cancel]

end Tail

theorem utf8PiecesFrom_lead {b : UInt8} {p : Utf8Partial} (h : utf8Start b = some (.inr p))
    (rest : Bytes) : utf8PiecesFrom none (b :: rest) = utf8PiecesFrom (some p) rest := by
  rw [utf8PiecesFrom, h]

section Sequence

variable {lead r s t : Nat}

theorem utf8PiecesFrom_pair (hlead : lead < 32) (long : 2 ≤ lead) (ht : t < 64) (rest : Bytes) :
    utf8PiecesFrom none (UInt8.ofNat (lead + 192) :: UInt8.ofNat (t + 128) :: rest) =
      .char (Char.ofNat (lead * 64 + t)) :: utf8PiecesFrom none rest := by
  rw [utf8PiecesFrom_lead (utf8Start_pair lead hlead long),
    utf8PiecesFrom_last ht (by simp) (by simp; omega) rfl]

theorem utf8PiecesFrom_triple (hlead : lead < 16) (hs : s < 64) (ht : t < 64)
    (long : lead = 0 → 32 ≤ s) (scalar : lead = 13 → s < 32) (rest : Bytes) :
    utf8PiecesFrom none
        (UInt8.ofNat (lead + 224) :: UInt8.ofNat (s + 128) :: UInt8.ofNat (t + 128) :: rest) =
      .char (Char.ofNat ((lead * 64 + s) * 64 + t)) :: utf8PiecesFrom none rest := by
  have low : (if lead = 0 then (0xa0 : UInt8) else 0x80).toNat ≤ s + 128 := by
    split <;> simp; omega
  have high : s + 128 ≤ (if lead = 13 then (0x9f : UInt8) else 0xbf).toNat := by
    split <;> simp <;> omega
  rw [utf8PiecesFrom_lead (utf8Start_triple lead hlead),
    utf8PiecesFrom_more hs low high (by simp),
    utf8PiecesFrom_last ht (by simp) (by simp; omega) rfl]

theorem utf8PiecesFrom_quadruple (hlead : lead < 5) (hr : r < 64) (hs : s < 64) (ht : t < 64)
    (long : lead = 0 → 16 ≤ r) (scalar : lead = 4 → r < 16) (rest : Bytes) :
    utf8PiecesFrom none (UInt8.ofNat (lead + 240) :: UInt8.ofNat (r + 128) :: UInt8.ofNat (s + 128) ::
        UInt8.ofNat (t + 128) :: rest) =
      .char (Char.ofNat (((lead * 64 + r) * 64 + s) * 64 + t)) :: utf8PiecesFrom none rest := by
  have low : (if lead = 0 then (0x90 : UInt8) else 0x80).toNat ≤ r + 128 := by
    split <;> simp; omega
  have high : r + 128 ≤ (if lead = 4 then (0x8f : UInt8) else 0xbf).toNat := by
    split <;> simp <;> omega
  rw [utf8PiecesFrom_lead (utf8Start_quadruple lead hlead),
    utf8PiecesFrom_more hr low high (by simp),
    utf8PiecesFrom_more hs (by simp) (by simp; omega) (by simp),
    utf8PiecesFrom_last ht (by simp) (by simp; omega) rfl]

end Sequence

theorem utf8PiecesFrom_encodeChar (c : Char) (rest : Bytes) :
    utf8PiecesFrom none (String.utf8EncodeChar c ++ rest) = .char c :: utf8PiecesFrom none rest := by
  have value : Char.ofNat c.val.toNat = c := Char.ofNat_toNat c
  have valid : c.val.toNat < 0xd800 ∨ 0xdfff < c.val.toNat ∧ c.val.toNat < 0x110000 := c.valid
  rw [String.utf8EncodeChar]
  generalize c.val.toNat = v at value valid ⊢
  split
  case isTrue h =>
    have byte : (UInt8.ofNat v).toNat = v := by rw [UInt8.toNat_ofNat']; omega
    have ascii : UInt8.ofNat v < 0x80 := by
      rw [UInt8.lt_iff_toNat_lt, byte]
      exact Nat.lt_succ_of_le h
    have start : utf8Start (UInt8.ofNat v) = some (.inl c) := by
      rw [utf8Start, if_pos ascii, byte, value]
    rw [List.singleton_append, utf8PiecesFrom, start]
  case isFalse h1 =>
  split
  case isTrue h =>
    have whole : v / 64 % 32 * 64 + v % 64 = v := by omega
    refine (utf8PiecesFrom_pair (by omega) (by omega) (by omega) rest).trans ?_
    rw [whole, value]
  case isFalse h2 =>
  split
  case isTrue h =>
    have whole : (v / 4096 % 16 * 64 + v / 64 % 64) * 64 + v % 64 = v := by omega
    refine (utf8PiecesFrom_triple (by omega) (by omega) (by omega) (by omega) (by omega) rest).trans ?_
    rw [whole, value]
  case isFalse h3 =>
    have whole : ((v / 262144 % 8 * 64 + v / 4096 % 64) * 64 + v / 64 % 64) * 64 + v % 64 = v := by
      omega
    refine (utf8PiecesFrom_quadruple (by omega) (by omega) (by omega) (by omega) (by omega)
      (by omega) rest).trans ?_
    rw [whole, value]

theorem utf8Pieces_utf8 (s : String) : utf8Pieces (utf8 s) = s.toList.map .char := by
  unfold utf8Pieces utf8
  induction s.toList with
  | nil => rfl
  | cons c cs ih => rw [List.flatMap_cons, utf8PiecesFrom_encodeChar, ih, List.map_cons]

theorem utf8Lossy_utf8 (s : String) : utf8Lossy (utf8 s) = s := by
  rw [utf8Lossy, utf8Pieces_utf8, List.map_map]
  exact (congrArg String.ofList (List.map_id s.toList)).trans String.ofList_toList

theorem utf8_eq_nil_iff {s : String} : utf8 s = [] ↔ s = "" := by
  constructor
  · intro h
    rw [← utf8Lossy_utf8 s, h]
    rfl
  · rintro rfl
    rfl

theorem utf8Collect_chars (offset : Nat) (cs : List Char) :
    utf8Collect offset (cs.map .char) = .ok cs := by
  induction cs generalizing offset with
  | nil => rfl
  | cons c cs ih => rw [List.map_cons, utf8Collect, ih]; rfl

theorem utf8Decode_utf8 (s : String) : utf8Decode (utf8 s) = .ok s := by
  rw [utf8Decode, utf8Pieces_utf8, utf8Collect_chars]
  exact congrArg Except.ok String.ofList_toList

section Reading

variable {lead r s t : Nat} {bs : Bytes} {cs : List Char}

theorem val_ofNat {v : Nat} (h : v.isValidChar) : (Char.ofNat v).val.toNat = v := by
  rw [Char.ofNat, dif_pos h]
  rfl

theorem encodeChar_single (ht : t < 128) :
    String.utf8EncodeChar (Char.ofNat t) = [UInt8.ofNat t] := by
  have valid : t.isValidChar := .inl (by omega)
  rw [String.utf8EncodeChar, val_ofNat valid, if_pos (by omega)]

theorem encodeChar_pair (hlead : lead < 32) (long : 2 ≤ lead) (ht : t < 64) :
    String.utf8EncodeChar (Char.ofNat (lead * 64 + t)) =
      [UInt8.ofNat (lead + 192), UInt8.ofNat (t + 128)] := by
  have valid : (lead * 64 + t).isValidChar := .inl (by omega)
  have first : (lead * 64 + t) / 64 % 32 = lead := by omega
  have last : (lead * 64 + t) % 64 = t := by omega
  rw [String.utf8EncodeChar, val_ofNat valid, if_neg (by omega), if_pos (by omega), first, last]

theorem encodeChar_triple (hlead : lead < 16) (hs : s < 64) (ht : t < 64)
    (long : lead = 0 → 32 ≤ s) (scalar : lead = 13 → s < 32) :
    String.utf8EncodeChar (Char.ofNat ((lead * 64 + s) * 64 + t)) =
      [UInt8.ofNat (lead + 224), UInt8.ofNat (s + 128), UInt8.ofNat (t + 128)] := by
  have valid : ((lead * 64 + s) * 64 + t).isValidChar := by unfold Nat.isValidChar; omega
  have first : ((lead * 64 + s) * 64 + t) / 4096 % 16 = lead := by omega
  have second : ((lead * 64 + s) * 64 + t) / 64 % 64 = s := by omega
  have last : ((lead * 64 + s) * 64 + t) % 64 = t := by omega
  rw [String.utf8EncodeChar, val_ofNat valid, if_neg (by omega), if_neg (by omega),
    if_pos (by omega), first, second, last]

theorem encodeChar_quadruple (hlead : lead < 5) (hr : r < 64) (hs : s < 64) (ht : t < 64)
    (long : lead = 0 → 16 ≤ r) (scalar : lead = 4 → r < 16) :
    String.utf8EncodeChar (Char.ofNat (((lead * 64 + r) * 64 + s) * 64 + t)) =
      [UInt8.ofNat (lead + 240), UInt8.ofNat (r + 128), UInt8.ofNat (s + 128),
        UInt8.ofNat (t + 128)] := by
  have valid : (((lead * 64 + r) * 64 + s) * 64 + t).isValidChar := by
    unfold Nat.isValidChar
    omega
  have first : (((lead * 64 + r) * 64 + s) * 64 + t) / 262144 % 8 = lead := by omega
  have second : (((lead * 64 + r) * 64 + s) * 64 + t) / 4096 % 64 = r := by omega
  have third : (((lead * 64 + r) * 64 + s) * 64 + t) / 64 % 64 = s := by omega
  have last : (((lead * 64 + r) * 64 + s) * 64 + t) % 64 = t := by omega
  rw [String.utf8EncodeChar, val_ofNat valid, if_neg (by omega), if_neg (by omega),
    if_neg (by omega), first, second, third, last]

theorem utf8Start_stray : ∀ n < 256, 128 ≤ n → n < 194 ∨ 245 ≤ n →
    utf8Start (UInt8.ofNat n) = none := by
  decide +kernel

theorem exists_tail {p : Utf8Partial} (h : utf8PiecesFrom (some p) bs = cs.map .char)
    (low : 128 ≤ p.low.toNat) (high : p.high.toNat < 192) :
    ∃ t rest, bs = UInt8.ofNat (t + 128) :: rest ∧ t < 64 ∧ p.low.toNat ≤ t + 128 ∧
      t + 128 ≤ p.high.toNat := by
  cases bs with
  | nil => cases cs <;> exact absurd h nofun
  | cons b rest =>
    rw [utf8PiecesFrom] at h
    split at h
    case isTrue inRange =>
      rw [UInt8.le_iff_toNat_le, UInt8.le_iff_toNat_le] at inRange
      have byte : b.toNat - 128 + 128 = b.toNat := by omega
      exact ⟨b.toNat - 128, rest, by rw [byte, UInt8.ofNat_toNat], by omega, by omega, by omega⟩
    case isFalse => cases cs <;> exact absurd h (by simp)

theorem exists_encodeChar_pair (hlead : lead < 32) (long : 2 ≤ lead)
    (h : utf8PiecesFrom none (UInt8.ofNat (lead + 192) :: bs) = cs.map .char) :
    ∃ c rest, UInt8.ofNat (lead + 192) :: bs = String.utf8EncodeChar c ++ rest := by
  rw [utf8PiecesFrom_lead (utf8Start_pair lead hlead long)] at h
  obtain ⟨t, rest, rfl, ht, -, -⟩ := exists_tail h (by simp) (by simp)
  exact ⟨_, rest, by rw [encodeChar_pair hlead long ht]; rfl⟩

theorem exists_encodeChar_triple (hlead : lead < 16)
    (h : utf8PiecesFrom none (UInt8.ofNat (lead + 224) :: bs) = cs.map .char) :
    ∃ c rest, UInt8.ofNat (lead + 224) :: bs = String.utf8EncodeChar c ++ rest := by
  rw [utf8PiecesFrom_lead (utf8Start_triple lead hlead)] at h
  obtain ⟨s, bs, rfl, hs, low, high⟩ := exists_tail h (by dsimp only; split <;> decide)
    (by dsimp only; split <;> decide)
  rw [utf8PiecesFrom_more hs low high (by simp)] at h
  obtain ⟨t, rest, rfl, ht, -, -⟩ := exists_tail h (by simp) (by simp)
  have long : lead = 0 → 32 ≤ s := by
    rintro rfl
    have least : 160 ≤ s + 128 := low
    omega
  have scalar : lead = 13 → s < 32 := by
    rintro rfl
    have most : s + 128 ≤ 159 := high
    omega
  exact ⟨_, rest, by rw [encodeChar_triple hlead hs ht long scalar]; rfl⟩

theorem exists_encodeChar_quadruple (hlead : lead < 5)
    (h : utf8PiecesFrom none (UInt8.ofNat (lead + 240) :: bs) = cs.map .char) :
    ∃ c rest, UInt8.ofNat (lead + 240) :: bs = String.utf8EncodeChar c ++ rest := by
  rw [utf8PiecesFrom_lead (utf8Start_quadruple lead hlead)] at h
  obtain ⟨r, bs, rfl, hr, low, high⟩ := exists_tail h (by dsimp only; split <;> decide)
    (by dsimp only; split <;> decide)
  rw [utf8PiecesFrom_more hr low high (by simp)] at h
  obtain ⟨s, bs, rfl, hs, low', high'⟩ := exists_tail h (by simp) (by simp)
  rw [utf8PiecesFrom_more hs low' high' (by simp)] at h
  obtain ⟨t, rest, rfl, ht, -, -⟩ := exists_tail h (by simp) (by simp)
  have long : lead = 0 → 16 ≤ r := by
    rintro rfl
    have least : 144 ≤ r + 128 := low
    omega
  have scalar : lead = 4 → r < 16 := by
    rintro rfl
    have most : r + 128 ≤ 143 := high
    omega
  exact ⟨_, rest, by rw [encodeChar_quadruple hlead hr hs ht long scalar]; rfl⟩

theorem exists_encodeChar {b : UInt8} (h : utf8PiecesFrom none (b :: bs) = cs.map .char) :
    ∃ c rest, b :: bs = String.utf8EncodeChar c ++ rest := by
  obtain ⟨n, bound, rfl⟩ : ∃ n < 256, b = UInt8.ofNat n := ⟨b.toNat, b.toNat_lt, by simp⟩
  rcases Nat.lt_or_ge n 128 with ascii | long
  · exact ⟨_, bs, by rw [encodeChar_single ascii]; rfl⟩
  by_cases stray : n < 194 ∨ 245 ≤ n
  · rw [utf8PiecesFrom, utf8Start_stray n bound long stray] at h
    cases cs <;> exact absurd h (by simp)
  rcases Nat.lt_or_ge n 224 with pair | long
  · obtain ⟨lead, rfl⟩ := Nat.exists_eq_add_of_le' (show 192 ≤ n by omega)
    exact exists_encodeChar_pair (by omega) (by omega) h
  rcases Nat.lt_or_ge n 240 with triple | long
  · obtain ⟨lead, rfl⟩ := Nat.exists_eq_add_of_le' long
    exact exists_encodeChar_triple (by omega) h
  · obtain ⟨lead, rfl⟩ := Nat.exists_eq_add_of_le' long
    exact exists_encodeChar_quadruple (by omega) h

theorem eq_encoded_of_pieces (h : utf8PiecesFrom none bs = cs.map .char) :
    bs = cs.flatMap String.utf8EncodeChar := by
  induction cs generalizing bs with
  | nil =>
    cases bs with
    | nil => rfl
    | cons b bs =>
      obtain ⟨c, rest, bytes⟩ := exists_encodeChar h
      rw [bytes, utf8PiecesFrom_encodeChar] at h
      exact absurd h (by simp)
  | cons c cs ih =>
    cases bs with
    | nil => exact absurd h nofun
    | cons b bs =>
      obtain ⟨d, rest, bytes⟩ := exists_encodeChar h
      rw [bytes, utf8PiecesFrom_encodeChar, List.map_cons] at h
      obtain ⟨same, others⟩ := List.cons.inj h
      rw [bytes, List.flatMap_cons, Utf8Piece.char.inj same, ih others]

theorem eq_chars_of_utf8Collect {offset : Nat} {ps : List Utf8Piece}
    (h : utf8Collect offset ps = .ok cs) : ps = cs.map .char := by
  fun_induction utf8Collect offset ps generalizing cs with
  | case1 => rw [← Except.ok.inj h]; rfl
  | case2 offset c ps ih =>
    cases collected : utf8Collect (offset + c.utf8Size) ps with
    | error fault => rw [collected] at h; exact absurd h nofun
    | ok ds =>
      rw [collected] at h
      rw [← Except.ok.inj h, List.map_cons, ih collected]
  | case3 => exact absurd h nofun
  | case4 => exact absurd h nofun

/-- Only the bytes of a text are read as it. -/
theorem utf8Decode_eq_ok_iff {s : String} : utf8Decode bs = .ok s ↔ bs = utf8 s := by
  constructor
  · intro h
    cases collected : utf8Collect 0 (utf8Pieces bs) with
    | error fault => rw [utf8Decode, collected] at h; exact absurd h nofun
    | ok cs =>
      rw [utf8Decode, collected] at h
      have text : String.ofList cs = s := Except.ok.inj h
      rw [utf8, ← text, String.toList_ofList]
      exact eq_encoded_of_pieces (eq_chars_of_utf8Collect collected)
  · rintro rfl
    exact utf8Decode_utf8 s

end Reading

theorem eq_of_small_mem_encodeChar {b : UInt8} {c : Char} (small : b < 0x80)
    (h : b ∈ String.utf8EncodeChar c) : c = Char.ofNat b.toNat := by
  have is (n : Nat) : b = UInt8.ofNat n ↔ n % 256 = b.toNat := by
    rw [← UInt8.toNat_inj, UInt8.toNat_ofNat', eq_comm]
  have low : b.toNat < 128 := UInt8.lt_iff_toNat_lt.1 small
  have value : Char.ofNat c.val.toNat = c := Char.ofNat_toNat c
  rw [String.utf8EncodeChar] at h
  generalize c.val.toNat = v at value h
  split at h
  case isTrue one =>
    have same : v = b.toNat := by
      rw [List.mem_singleton, is] at h
      omega
    rw [← value, same]
  case isFalse =>
    -- all bytes of a longer encoding have their highest bit set
    exfalso
    split at h
    case' isFalse => split at h
    all_goals
      simp only [List.mem_cons, List.not_mem_nil, or_false, is] at h
      omega

theorem not_mem_utf8 {b : UInt8} {s : String} (small : b < 0x80)
    (h : Char.ofNat b.toNat ∉ s.toList) : b ∉ utf8 s := by
  intro mem
  obtain ⟨c, hc, byte⟩ := List.mem_flatMap.1 mem
  exact h (eq_of_small_mem_encodeChar small byte ▸ hc)

theorem zero_not_mem_utf8 {s : String} (h : '\x00' ∉ s.toList) : 0 ∉ utf8 s :=
  not_mem_utf8 (by decide) h

section Order

theorem digits_lt {v w : Nat} (h : v < w) :
    v / 262144 < w / 262144 ∨ v / 262144 = w / 262144 ∧
      (v / 4096 % 64 < w / 4096 % 64 ∨ v / 4096 % 64 = w / 4096 % 64 ∧
        (v / 64 % 64 < w / 64 % 64 ∨ v / 64 % 64 = w / 64 % 64 ∧ v % 64 < w % 64)) := by
  omega

/-- A longer encoding begins with a greater byte than a shorter one, and encodings of one length hold
the digits of the codes. -/
theorem encodeChar_append_lt {c d : Char} (h : c < d) (x y : Bytes) :
    String.utf8EncodeChar c ++ x < String.utf8EncodeChar d ++ y := by
  have below : c.val.toNat < d.val.toNat := UInt32.lt_iff_toNat_lt.1 (Char.lt_def.1 h)
  have bound : d.val.toNat < 0x110000 := by
    have valid : d.val.toNat < 0xd800 ∨ 0xdfff < d.val.toNat ∧ d.val.toNat < 0x110000 := d.valid
    omega
  have byte {k n low : Nat} (fits : low + k ≤ 256) (pos : 0 < k) :
      (n % k + low) % 256 = n % k + low := by
    have small := Nat.mod_lt n pos
    exact Nat.mod_eq_of_lt (by omega)
  rw [String.utf8EncodeChar, String.utf8EncodeChar]
  generalize c.val.toNat = v, d.val.toNat = w at below bound ⊢
  have digits := digits_lt below
  have lead : v / 262144 % 8 = v / 262144 ∧ w / 262144 % 8 = w / 262144 := by omega
  repeat' split
  all_goals
    simp (disch := decide) only [List.cons_append, List.nil_append, List.cons_lt_cons_iff,
      UInt8.lt_iff_toNat_lt, ← UInt8.toNat_inj, UInt8.toNat_ofNat', byte]
    omega

theorem utf8_lt {a b : String} (h : a < b) : utf8 a < utf8 b := by
  have below : a.toList < b.toList := String.lt_iff.1 h
  unfold utf8
  generalize a.toList = cs, b.toList = ds at below ⊢
  induction below with
  | @nil d ds =>
    obtain ⟨b, bs, first⟩ := List.exists_cons_of_ne_nil (String.utf8EncodeChar_ne_nil (c := d))
    rw [List.flatMap_nil, List.flatMap_cons, first]
    exact List.nil_lt_cons _ _
  | cons _ ih => exact List.append_left_lt ih
  | rel first => exact encodeChar_append_lt first _ _

end Order

end FleetPosture.Text
