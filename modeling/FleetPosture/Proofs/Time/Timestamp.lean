import FleetPosture.Proofs.Text.Numeral
import FleetPosture.Time.Timestamp

/-! Reading the text of a time gives the time back, and every time that was read has a text: its
offset is less than a day. -/

namespace FleetPosture.Timestamp

open Text (padded)

theorem toList_dash : "-".toList = ['-'] := rfl

theorem toList_plus : "+".toList = ['+'] := rfl

theorem toList_colon : ":".toList = [':'] := rfl

theorem toList_t : "T".toList = ['T'] := rfl

theorem digits?_padded {width n : Nat} (hw : 0 < width) (hn : n < Nat.pow 10 width)
    (rest : List Char) : digits? width ((padded width n).toList ++ rest) = some (n, rest) := by
  have length := Text.length_padded hw hn
  rw [digits?, List.take_left' length, List.drop_left' length, if_pos length, Text.digits?_padded,
    Option.map_some]

theorem digits?_two {n : Nat} (hn : n < 100) (rest : List Char) :
    digits? 2 ((padded 2 n).toList ++ rest) = some (n, rest) := digits?_padded (by decide) hn rest

theorem digits?_four {n : Nat} (hn : n < 10000) (rest : List Char) :
    digits? 4 ((padded 4 n).toList ++ rest) = some (n, rest) := digits?_padded (by decide) hn rest

theorem nanoOf_eq {ds zeros : List Char} {nano : Nat} (h9 : (ds ++ zeros).length = 9)
    (hz : ∀ c ∈ zeros, c = '0') (value : Text.digits? 10 (ds ++ zeros) = some nano) :
    nanoOf ds = nano := by
  have short : ds.length ≤ 9 := by
    rw [List.length_append] at h9
    omega
  have filled : List.replicate (9 - ds.length) '0' = zeros := by
    rw [List.eq_replicate_iff.2 ⟨rfl, hz⟩]
    congr 1
    rw [List.length_append] at h9
    omega
  rw [nanoOf, List.take_of_length_le short, filled, value, Option.getD_some]

theorem nanoOf_nil : nanoOf [] = 0 := by decide

theorem exists_zeros (ds : List Char) :
    ∃ zeros, (ds.reverse.dropWhile (· == '0')).reverse ++ zeros = ds ∧ ∀ c ∈ zeros, c = '0' := by
  refine ⟨(ds.reverse.takeWhile (· == '0')).reverse, ?_, ?_⟩
  · rw [← List.reverse_append, List.takeWhile_append_dropWhile, List.reverse_reverse]
  · intro c hc
    exact eq_of_beq (List.all_eq_true.1 List.all_takeWhile c (List.mem_reverse.1 hc))

theorem fraction?_point {ds : List Char} (digits : ∀ x ∈ ds, x.isDigit) (nonempty : ds ≠ [])
    {c : Char} (hd : c.isDigit = false) (rest : List Char) :
    fraction? ('.' :: (ds ++ c :: rest)) = some (nanoOf ds, c :: rest) := by
  have taken : (ds ++ c :: rest).takeWhile Char.isDigit = ds := by
    rw [List.takeWhile_append_of_pos digits, List.takeWhile_cons_of_neg (by simp [hd]),
      List.append_nil]
  have dropped : (ds ++ c :: rest).dropWhile Char.isDigit = c :: rest := by
    rw [List.dropWhile_append_of_pos digits, List.dropWhile_cons_of_neg (by simp [hd])]
  rw [fraction?, taken, dropped, if_neg (by simpa using nonempty)]

theorem fraction?_of_ne_point {c : Char} (hp : c ≠ '.') (rest : List Char) :
    fraction? (c :: rest) = some (0, c :: rest) := by
  unfold fraction?
  split
  · next heq => exact absurd (List.cons.inj heq).1 hp
  · rfl

theorem fraction?_fractionText {nano : Nat} (h : nano ≤ 999999999) {c : Char}
    (hd : c.isDigit = false) (hp : c ≠ '.') (rest : List Char) :
    fraction? ((fractionText nano).toList ++ c :: rest) = some (nano, c :: rest) := by
  unfold fractionText
  by_cases h0 : nano = 0
  · rw [if_pos h0, h0]
    exact fraction?_of_ne_point hp rest
  · rw [if_neg h0]
    have length : (padded 9 nano).toList.length = 9 :=
      Text.length_padded (by decide) (Nat.lt_of_le_of_lt h (by decide))
    have value : Text.digits? 10 (padded 9 nano).toList = some nano := Text.digits?_padded
    have digits : ∀ x ∈ (padded 9 nano).toList, x.isDigit :=
      fun x hx => Text.isDigit_of_mem_padded hx
    generalize (padded 9 nano).toList = ds at length value digits ⊢
    -- the zeros that the text leaves out are filled in again when it is read
    obtain ⟨zeros, split, hz⟩ := exists_zeros ds
    dsimp only
    generalize (ds.reverse.dropWhile (· == '0')).reverse = kept at split ⊢
    subst split
    have reads : nanoOf kept = nano := nanoOf_eq length hz value
    have nonempty : kept ≠ [] := by
      intro hnil
      rw [hnil, nanoOf_nil] at reads
      exact h0 reads.symm
    rw [String.toList_append, String.toList_ofList, String.toList_ofList, List.append_assoc, ← reads]
    exact fraction?_point (fun x hx => digits x (List.mem_append_left _ hx)) nonempty hd rest

theorem offset?_signed {c : Char} (negative : Bool) (sign : ∀ r, sign? (c :: r) = some (negative, r))
    {hours minutes : Nat} (hh : hours ≤ 23) (hm : minutes ≤ 59) :
    offset? (c :: ((padded 2 hours).toList ++ ':' :: (padded 2 minutes).toList)) =
      some (if negative then -((hours * 60 + minutes : Nat) : Int)
        else (hours * 60 + minutes : Nat)) := by
  have last := digits?_two (n := minutes) (by omega) []
  rw [List.append_nil] at last
  have no_zone : ¬ (c :: ((padded 2 hours).toList ++ ':' :: (padded 2 minutes).toList) = ['Z'] ∨
      c :: ((padded 2 hours).toList ++ ':' :: (padded 2 minutes).toList) = ['z']) := by
    simp
  have in_range : ¬ (([] : List Char) ≠ [] ∨ 23 < hours ∨ 59 < minutes) := by
    rintro (h | h | h)
    · exact h rfl
    · exact Nat.not_lt.2 hh h
    · exact Nat.not_lt.2 hm h
  rw [offset?, if_neg no_zone, sign]
  simp only [Option.bind_eq_bind, Option.bind_some, digits?_two (n := hours) (by omega), char?,
    if_true, last, if_neg in_range]

theorem offset?_offsetText {offset : Int} (h : offset.natAbs < 24 * 60) :
    offset? (offsetText offset).toList = some offset := by
  unfold offsetText
  by_cases h0 : offset = 0
  · rw [if_pos h0, h0]
    rfl
  · rw [if_neg h0]
    have hours : offset.natAbs / 60 ≤ 23 := by omega
    have minutes : offset.natAbs % 60 ≤ 59 := by omega
    by_cases hn : offset < 0
    · rw [if_pos hn]
      simp only [String.toList_append, List.append_assoc, toList_dash, toList_colon,
        List.cons_append, List.nil_append]
      rw [offset?_signed true (fun _ => rfl) hours minutes, if_pos rfl]
      congr 1
      omega
    · rw [if_neg hn]
      simp only [String.toList_append, List.append_assoc, toList_plus, toList_colon,
        List.cons_append, List.nil_append]
      rw [offset?_signed false (fun _ => rfl) hours minutes, if_neg (by decide)]
      congr 1
      omega

theorem offsetText_eq_cons (offset : Int) :
    ∃ c rest, (offsetText offset).toList = c :: rest ∧ c.isDigit = false ∧ c ≠ '.' := by
  unfold offsetText
  split
  · exact ⟨'Z', [], rfl, rfl, by decide⟩
  · simp only [String.toList_append, List.append_assoc]
    split
    · exact ⟨'-', _, rfl, rfl, by decide⟩
    · exact ⟨'+', _, rfl, rfl, by decide⟩

theorem text?_eq_some_iff {t : Timestamp} : (∃ s, t.text? = some s) ↔ t.offset.natAbs < 24 * 60 := by
  unfold text?
  split
  · next h => exact ⟨fun ⟨s, hs⟩ => absurd hs (by simp), fun h' => absurd h (Nat.not_le.2 h')⟩
  · next h => exact ⟨fun _ => Nat.not_le.1 h, fun _ => ⟨_, rfl⟩⟩

theorem daysInMonth_lt (year : Int) (month : Nat) : Time.daysInMonth year month < 100 := by
  unfold Time.daysInMonth
  repeat' split
  all_goals decide

theorem parse?_of_text? {t : Timestamp} {s : String} (h : t.text? = some s) : parse? s = some t := by
  have short : t.offset.natAbs < 24 * 60 := text?_eq_some_iff.1 ⟨s, h⟩
  rw [text?, if_neg (Nat.not_le.2 short)] at h
  rw [← Option.some.inj h, parse?]
  obtain ⟨year, month, day, hour, minute, second, nano, offset, valid⟩ := t
  have bounds := valid
  simp only [Time.isTimestamp, Time.isDate, Bool.and_eq_true, decide_eq_true_iff] at bounds
  obtain ⟨⟨⟨⟨⟨⟨hy, ⟨⟨⟨-, hmonth⟩, -⟩, hday⟩⟩, hh⟩, hm⟩, hs⟩, hn⟩, -⟩ := bounds
  have days : day < 100 := Nat.lt_of_le_of_lt hday (daysInMonth_lt year month)
  obtain ⟨c, rest, hc, hd, hp⟩ := offsetText_eq_cons offset
  have ends := offset?_offsetText short
  dsimp only at ends ⊢
  rw [hc] at ends
  simp only [String.toList_append, List.append_assoc, hc, toList_dash, toList_colon, toList_t,
    List.cons_append, List.nil_append]
  have ordinary : second ≠ 60 := by omega
  simp only [parseChars?, Option.bind_eq_bind, Option.bind_some, char?, if_true,
    digits?_four (n := year) (by omega),
    digits?_two (n := month) (by omega), digits?_two (n := day) (by omega),
    digits?_two (n := hour) (by omega), digits?_two (n := minute) (by omega),
    digits?_two (n := second) (by omega), fraction?_fractionText hn hd hp, ends,
    if_neg ordinary]
  rw [if_neg (by decide), ofFields?, dif_pos valid]

theorem natAbs_of_offset? {s : List Char} {offset : Int} (h : offset? s = some offset) :
    offset.natAbs < 24 * 60 := by
  unfold offset? at h
  split at h
  · rw [← Option.some.inj h]
    decide
  · simp only [Option.bind_eq_bind, Option.bind_eq_some_iff] at h
    obtain ⟨⟨negative, r⟩, -, ⟨hours, r⟩, -, r, -, ⟨minutes, r⟩, -, h⟩ := h
    dsimp only at h
    split at h
    · exact absurd h (by simp)
    · next inRange =>
      rw [← Option.some.inj h]
      split <;> omega

theorem offset_of_ofFields? {year month day hour minute second nano : Nat} {offset : Int}
    {t : Timestamp} (h : ofFields? year month day hour minute second nano offset = some t) :
    t.offset = offset := by
  unfold ofFields? at h
  split at h
  · rw [← Option.some.inj h]
  · exact absurd h (by simp)

theorem text?_of_parse? {s : String} {t : Timestamp} (h : parse? s = some t) :
    ∃ text, t.text? = some text := by
  rw [text?_eq_some_iff]
  unfold parse? parseChars? at h
  simp only [Option.bind_eq_bind, Option.bind_eq_some_iff] at h
  obtain ⟨year, -, _, -, month, -, _, -, day, -, h⟩ := h
  split at h
  · rw [Option.bind_some] at h
    split at h
    · exact absurd h (by simp)
    · simp only [Option.bind_eq_some_iff] at h
      obtain ⟨hour, -, _, -, minute, -, _, -, second, -, nano, -, offset, ho, h⟩ := h
      have given : t.offset = offset := by
        split at h
        · exact offset_of_ofFields? (Option.filter_eq_some_iff.1 h).1
        · exact offset_of_ofFields? h
      rw [given]
      exact natAbs_of_offset? ho
  · exact absurd h (by simp)

end FleetPosture.Timestamp
