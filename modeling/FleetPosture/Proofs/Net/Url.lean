import FleetPosture.Net.Url
import FleetPosture.Proofs.Text.Lines
import FleetPosture.Proofs.Text.Pieces

/-! Web URLs and the plain names that are joined to them. The segments of a web URL hold no slash,
so that its last slash is the one before its last segment, and what is joined to the URL replaces
that segment. -/

namespace FleetPosture.Net.Url

section Plain

def isPlainChar (c : Char) : Bool := c.isAlphanum || c == '-' || c == '_'

structure IsPlainName (s : String) : Prop where
  nonempty : s ≠ ""
  plain : ∀ c ∈ s.toList, isPlainChar c

instance (s : String) : Decidable (IsPlainName s) :=
  decidable_of_iff (s ≠ "" ∧ s.toList.all isPlainChar)
    ⟨fun h => ⟨h.1, List.all_eq_true.1 h.2⟩, fun h => ⟨h.nonempty, List.all_eq_true.2 h.plain⟩⟩

theorem isPlainChar_lt {c : Char} (h : isPlainChar c) : c.toNat < 0x80 := by
  rw [isPlainChar, Bool.or_eq_true, Bool.or_eq_true, beq_iff_eq, beq_iff_eq] at h
  rcases h with (alphanumeric | rfl) | rfl
  · have range := Text.isAlphanum_range alphanumeric
    omega
  · decide
  · decide

theorem isPlainChar_passes {c : Char} (h : isPlainChar c) :
    isPlainChar c.toLower ∧ inPath c = false ∧ 0x20 < c.toNat ∧ c ≠ '/' ∧ c ≠ '\\' := by
  have small : ∀ n < 0x80, isPlainChar (Char.ofNat n) →
      isPlainChar (Char.ofNat n).toLower ∧ inPath (Char.ofNat n) = false ∧
        0x20 < (Char.ofNat n).toNat ∧ Char.ofNat n ≠ '/' ∧ Char.ofNat n ≠ '\\' := by
    decide +kernel
  have found := small c.toNat (isPlainChar_lt h)
  rw [Char.ofNat_toNat] at found
  exact found h

theorem percentEncoded_of_forall_not {reserved : Char → Bool} {s : List Char}
    (h : ∀ c ∈ s, reserved c = false) : percentEncoded reserved s = s := by
  induction s with
  | nil => rfl
  | cons c s ih =>
    obtain ⟨hc, hs⟩ := List.forall_mem_cons.1 h
    rw [percentEncoded, List.flatMap_cons, hc]
    exact congrArg (c :: ·) (ih hs)

variable {s : String}

theorem IsPlainName.encodedText (h : IsPlainName s) : Url.encodedText inPath s.toList = s := by
  have kept := percentEncoded_of_forall_not fun c hc => (isPlainChar_passes (h.plain c hc)).2.1
  rw [Url.encodedText, kept, String.ofList_toList]

theorem IsPlainName.not_isDots (h : IsPlainName s) : isDot s = false ∧ isDoubleDot s = false := by
  have lower : ∀ c ∈ s.toLower.toList, isPlainChar c := by
    intro c hc
    have lowered : s.toLower.toList = s.toList.map Char.toLower := String.toList_map
    rw [lowered] at hc
    obtain ⟨d, hd, rfl⟩ := List.mem_map.1 hc
    exact (isPlainChar_passes (h.plain d hd)).1
  have other {t : String} (special : ¬ t.toList.all isPlainChar) : s ≠ t ∧ s.toLower ≠ t := by
    constructor
    · rintro rfl
      exact special (List.all_eq_true.2 h.plain)
    · rintro rfl
      exact special (List.all_eq_true.2 lower)
  constructor
  · have dot : s ≠ "." := (other (by decide)).1
    have escaped : s.toLower ≠ "%2e" := (other (by decide)).2
    rw [isDot, beq_false_of_ne dot, beq_false_of_ne escaped, Bool.or_self]
  · have dots : ∀ t ∈ ["..", ".%2e", "%2e.", "%2e%2e"], ¬ t.toList.all isPlainChar := by decide
    rw [isDoubleDot, Bool.eq_false_iff]
    intro listed
    exact (other (dots _ (List.contains_iff_mem.1 listed))).2 rfl

end Plain

section Segments

def SlashFree (segments : List String) : Prop := ∀ s ∈ segments, '/' ∉ s.toList

theorem slash_not_mem_percentByte (b : UInt8) : '/' ∉ percentByte b := by
  have digit (n : Nat) : '/' ≠ (Text.hexDigit n).toUpper := by
    have digits : ∀ d < 16, '/' ≠ (Nat.digitChar d).toUpper := by decide
    exact digits (n % 16) (Nat.mod_lt n (by decide))
  intro h
  simp only [percentByte, List.mem_cons, List.not_mem_nil, or_false, digit] at h
  exact absurd h (by decide)

theorem slash_not_mem_percentEncoded {reserved : Char → Bool} {s : List Char} (h : '/' ∉ s) :
    '/' ∉ percentEncoded reserved s := by
  intro hc
  obtain ⟨c, hc, piece⟩ := List.mem_flatMap.1 hc
  split at piece
  · obtain ⟨b, -, hb⟩ := List.mem_flatMap.1 piece
    exact slash_not_mem_percentByte b hb
  · rw [List.mem_singleton] at piece
    exact h (piece ▸ hc)

theorem slashFree_segmentsOf (special : Bool) (path : List Char) :
    SlashFree (segmentsOf special path) := by
  intro s hs
  obtain ⟨w, hw, rfl⟩ := List.mem_map.1 hs
  rw [encodedText, String.toList_ofList]
  refine slash_not_mem_percentEncoded fun slash => ?_
  have separates : isSlash special '/' = false := Text.not_of_mem_pieces hw _ slash
  cases special <;> exact absurd separates (by decide)

theorem SlashFree.append {segments list : List String} (h : SlashFree segments)
    (h' : SlashFree list) : SlashFree (segments ++ list) :=
  List.forall_mem_append.2 ⟨h, h'⟩

theorem SlashFree.dropLast {segments : List String} (h : SlashFree segments) :
    SlashFree segments.dropLast := fun s hs => h s ((List.dropLast_sublist segments).subset hs)

theorem slashFree_singleton {s : String} : SlashFree [s] ↔ '/' ∉ s.toList :=
  List.forall_mem_singleton

theorem extended_cons_cons (segments : List String) (s t : String) (r : List String) :
    extended segments (s :: t :: r) =
      extended (if isDoubleDot s then segments.dropLast else if isDot s then segments
        else segments ++ [s]) (t :: r) := rfl

theorem SlashFree.extended {segments list : List String} (h : SlashFree segments)
    (h' : SlashFree list) : SlashFree (Url.extended segments list) := by
  have empty : SlashFree [""] := slashFree_singleton.2 List.not_mem_nil
  induction list generalizing segments with
  | nil => exact h
  | cons s r ih =>
    obtain ⟨hs, hr⟩ := List.forall_mem_cons.1 h'
    have longer : SlashFree (segments ++ [s]) := h.append (slashFree_singleton.2 hs)
    cases r with
    | nil =>
      rw [Url.extended]
      split
      · exact h.dropLast.append empty
      · split
        · exact h.append empty
        · exact longer
    | cons t r =>
      rw [extended_cons_cons]
      refine ih ?_ hr
      split
      · exact h.dropLast
      · split
        · exact h
        · exact longer

theorem extended_ne_nil {segments list : List String} (h : list ≠ []) :
    extended segments list ≠ [] := by
  induction list generalizing segments with
  | nil => exact absurd rfl h
  | cons s r ih =>
    cases r with
    | nil =>
      rw [extended]
      split
      · exact List.append_ne_nil_of_right_ne_nil _ (List.cons_ne_nil _ _)
      · split <;> exact List.append_ne_nil_of_right_ne_nil _ (List.cons_ne_nil _ _)
    | cons t r =>
      rw [extended_cons_cons]
      exact ih (List.cons_ne_nil t r)

theorem extended_of_not_isDots {segments list : List String}
    (h : ∀ s ∈ list, isDot s = false ∧ isDoubleDot s = false) :
    extended segments list = segments ++ list := by
  induction list generalizing segments with
  | nil => rw [extended, List.append_nil]
  | cons s r ih =>
    obtain ⟨⟨dot, doubleDot⟩, hr⟩ := List.forall_mem_cons.1 h
    cases r with
    | nil => simp [extended, dot, doubleDot]
    | cons t r =>
      have rest : extended (segments ++ [s]) (t :: r) = segments ++ [s] ++ t :: r := ih hr
      simp only [extended, dot, doubleDot, Bool.false_eq_true, if_false]
      rw [rest, List.append_assoc, List.singleton_append]

end Segments

section Web

structure IsWeb (u : Url) : Prop where
  scheme : u.scheme = "http" ∨ u.scheme = "https"
  query : u.query = none
  fragment : u.fragment = none

theorem exists_of_afterSlashes {scheme : String} {s : List Char} {u : Url}
    (h : afterSlashes scheme s = .ok u) : u.scheme = scheme ∧ ∃ authority path,
      u.authority = some authority ∧ u.path = pathAfter (isSpecial scheme) path := by
  unfold afterSlashes at h
  dsimp only at h
  cases place : readAuthority scheme _ _ with
  | error => rw [place] at h; cases h
  | ok authority =>
    rw [place] at h
    cases h
    exact ⟨rfl, authority, _, rfl, rfl⟩

theorem pathAfter_special (path : List Char) :
    ∃ list, pathAfter true path = .segments list ∧ list ≠ [] ∧ SlashFree list := by
  cases path with
  | nil => exact ⟨[""], rfl, List.cons_ne_nil _ _, slashFree_singleton.2 List.not_mem_nil⟩
  | cons c r =>
    have some : segmentsOf true r ≠ [] := by
      rw [segmentsOf, Ne, List.map_eq_nil_iff]
      exact Text.pieces_ne_nil r
    have slashFree := slashFree_segmentsOf true r
    exact ⟨_, rfl, extended_ne_nil some, SlashFree.extended (List.forall_mem_nil _) slashFree⟩

theorem exists_of_bind {e : Except Fault String} {k : String → Url} {u : Url}
    (h : (e >>= fun host => pure (k host)) = .ok u) : ∃ host, u = k host := by
  cases e with
  | error => cases h
  | ok host => cases h; exact ⟨host, rfl⟩

theorem scheme_of_ofFile {s : List Char} {u : Url} (h : ofFile s = .ok u) : u.scheme = "file" := by
  unfold ofFile at h
  dsimp only at h
  -- whatever is cut off as the host, the scheme is the same
  split at h <;> split at h
  case h_1.isTrue | h_1.isFalse =>
    split at h
    all_goals
      obtain ⟨host, rfl⟩ := exists_of_bind h
      rfl
  case h_2.isTrue | h_2.isFalse =>
    obtain ⟨host, rfl⟩ := exists_of_bind h
    rfl

theorem exists_segments_of_parse {s : String} {u : Url} (h : parse s = .ok u)
    (web : u.scheme = "http" ∨ u.scheme = "https") :
    ∃ authority list, u.authority = some authority ∧ u.path = .segments list ∧ list ≠ [] ∧
      SlashFree list := by
  have special : isSpecial u.scheme := by
    rcases web with scheme | scheme <;> rw [scheme] <;> decide
  unfold parse at h
  split at h
  case h_1 => cases h
  case h_2 scheme rest _ =>
    split at h
    case isTrue file =>
      have scheme : u.scheme = "file" := scheme_of_ofFile h
      rcases web with web | web <;> exact absurd (web.symm.trans scheme) (by decide)
    case isFalse =>
      split at h
      case isTrue =>
        obtain ⟨rfl, authority, path, place, reached⟩ := exists_of_afterSlashes h
        obtain ⟨list, segments, nonempty, slashFree⟩ := pathAfter_special path
        rw [special] at reached
        exact ⟨authority, list, place, reached.trans segments, nonempty, slashFree⟩
      case isFalse ordinary =>
        -- any other scheme stays the URL's own
        have scheme : u.scheme = scheme := by
          split at h
          · exact (exists_of_afterSlashes h).1
          · cases h; rfl
          · cases h; rfl
        exact absurd (scheme ▸ special) ordinary

def origin (u : Url) : String :=
  u.scheme ++ ":" ++ (u.authority.map fun a => "//" ++ a.text).getD ""

theorem text_of_segments {u : Url} {list : List String} (path : u.path = .segments list)
    (query : u.query = none) (fragment : u.fragment = none) :
    u.text = u.origin ++ String.join (list.map ("/" ++ ·)) := by
  rw [text, origin, path, query, fragment]
  cases u.authority <;> simp [Path.toString]

theorem significant_of_forall {s : String} (h : ∀ c ∈ s.toList, 0x20 < c.toNat) :
    significant s = s.toList := by
  have visible : ∀ c ∈ s.toList, decide (c.toNat ≤ 0x20) = false := fun c hc =>
    decide_eq_false (Nat.not_le_of_lt (h c hc))
  have start : s.toList.dropWhile (fun c => c.toNat ≤ 0x20) = s.toList :=
    List.dropWhile_eq_self_iff.2 fun hl => by simp [visible _ (List.getElem_mem hl)]
  have ending : Text.trimEndWhile (fun c => c.toNat ≤ 0x20) s.toList = s.toList :=
    Text.trimEndWhile_of_getLast? fun c hc => visible c (List.mem_of_getLast? hc)
  unfold significant
  dsimp only
  rw [start, ending, List.filter_eq_self]
  intro c hc
  have above := h c hc
  have ne {d : Char} (hd : d.toNat ≤ 0x20) : (c != d) = true :=
    bne_iff_ne.2 fun e => absurd (e ▸ above) (Nat.not_lt_of_le hd)
  rw [ne (by decide), ne (by decide), ne (by decide)]
  rfl

end Web

section Names

variable {names : List String}

theorem toList_join_names :
    (Text.join "/" names).toList = ['/'].intercalate (names.map String.toList) :=
  String.toList_intercalate

theorem isPlainChar_of_mem_words (plain : ∀ name ∈ names, IsPlainName name) :
    ∀ w ∈ names.map String.toList, ∀ c ∈ w, isPlainChar c := by
  intro w hw
  obtain ⟨name, listed, rfl⟩ := List.mem_map.1 hw
  exact (plain name listed).plain

theorem plain_or_slash (plain : ∀ name ∈ names, IsPlainName name) :
    ∀ c ∈ (Text.join "/" names).toList, isPlainChar c ∨ c = '/' := by
  rw [toList_join_names]
  have words := isPlainChar_of_mem_words plain
  exact Text.forall_mem_intercalate (fun w hw c hc => .inl (words w hw c hc)) (.inr rfl)

theorem significant_join (plain : ∀ name ∈ names, IsPlainName name) :
    significant (Text.join "/" names) = (Text.join "/" names).toList := by
  refine significant_of_forall fun c hc => ?_
  rcases plain_or_slash plain c hc with plain | rfl
  · exact (isPlainChar_passes plain).2.2.1
  · decide

theorem cutTail_join (plain : ∀ name ∈ names, IsPlainName name) :
    cutTail (Text.join "/" names).toList = ⟨(Text.join "/" names).toList, none, none⟩ := by
  have uncut {d : Char} (other : isPlainChar d = false) (slash : d ≠ '/') :
      Text.cutFirst? d (Text.join "/" names).toList = none := by
    refine Text.cutFirst?_of_not_mem fun hd => ?_
    rcases plain_or_slash plain d hd with plain | rfl
    · exact Bool.false_ne_true (other.symm.trans plain)
    · exact slash rfl
  have noFragment := uncut (d := '#') (by decide) (by decide)
  have noQuery := uncut (d := '?') (by decide) (by decide)
  rw [cutTail, noFragment]
  dsimp only
  rw [noQuery]

theorem segmentsOf_join (plain : ∀ name ∈ names, IsPlainName name) (nonempty : names ≠ [])
    (special : Bool) : segmentsOf special (Text.join "/" names).toList = names := by
  have apart : ∀ w ∈ names.map String.toList, ∀ c ∈ w, isSlash special c = false := by
    intro w hw c hc
    have plain := isPlainChar_of_mem_words plain w hw c hc
    obtain ⟨-, -, -, slash, backslash⟩ := isPlainChar_passes plain
    rw [isSlash, beq_false_of_ne slash, beq_false_of_ne backslash, Bool.and_false, Bool.or_false]
  have pieces : Text.pieces (isSlash special) (Text.join "/" names).toList =
      names.map String.toList := by
    rw [toList_join_names]
    exact Text.pieces_intercalate apart rfl (by simpa using nonempty)
  have encoded : names.map (encodedText inPath ∘ String.toList) = names.map id :=
    List.map_congr_left fun name listed => (plain name listed).encodedText
  rw [segmentsOf, pieces, List.map_map, encoded, List.map_id]

theorem join_names {base : Url} {list : List String} (path : base.path = .segments list)
    (plain : ∀ name ∈ names, IsPlainName name) (nonempty : names ≠ []) :
    base.join (Text.join "/" names) =
      .ok ⟨base.scheme, base.authority, .segments (list.dropLast ++ names), none, none⟩ := by
  have noDots : ∀ name ∈ names, isDot name = false ∧ isDoubleDot name = false :=
    fun name listed => (plain name listed).not_isDots
  rw [join, path]
  dsimp only
  rw [significant_join plain, cutTail_join plain, segmentsOf_join plain nonempty,
    extended_of_not_isDots noDots]
  rfl

end Names

end FleetPosture.Net.Url
