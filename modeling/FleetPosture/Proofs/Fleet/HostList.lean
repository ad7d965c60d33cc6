import FleetPosture.Fleet.HostList
import FleetPosture.Proofs.KeepFirst
import FleetPosture.Proofs.Text.Lines
import Mathlib.Logic.Relation

/-! What a host list says is decided by the words of its lines before their comments. The first line
with too many of them is where reading fails; a list without such a line names its hosts, and it names
the same ones however it is spaced, remarked on and repeated. -/

namespace FleetPosture.Fleet.HostList

def wordsOf (line : List Char) : List (List Char) := Text.words (line.takeWhile (· != '#'))

abbrev Listed := Option String × String

def listed? : List (List Char) → Option Listed
  | [address] => some (none, String.ofList address)
  | [name, address] => some (some (String.ofList name), String.ofList address)
  | _ => none

def targetOf (h : Listed) : Target := ⟨h.1.getD "", none, "", [h.2]⟩

def hosts (ls : List (List Char)) : List Listed := ls.filterMap fun line => listed? (wordsOf line)

section Words

theorem takeWhile_append_of_not_mem {front : List Char} (h : '#' ∉ front) (back : List Char) :
    (front ++ back).takeWhile (· != '#') = front ++ back.takeWhile (· != '#') :=
  List.takeWhile_append_of_pos fun _ hc => bne_iff_ne.2 fun e => h (e ▸ hc)

theorem wordsOf_of_not_mem {line : List Char} (h : '#' ∉ line) : wordsOf line = Text.words line := by
  have whole := takeWhile_append_of_not_mem h []
  rw [List.takeWhile_nil, List.append_nil] at whole
  rw [wordsOf, whole]

theorem wordsOf_comment {plain : List Char} (h : '#' ∉ plain) (remark : List Char) :
    wordsOf (plain ++ '#' :: remark) = Text.words plain := by
  rw [wordsOf, takeWhile_append_of_not_mem h, List.takeWhile_cons_of_neg (by simp), List.append_nil]

theorem wordsOf_append_of_mem {front : List Char} (h : '#' ∈ front) (back : List Char) :
    wordsOf (front ++ back) = wordsOf front := by
  obtain ⟨plain, remark, rfl, free⟩ := List.eq_append_cons_of_mem h
  rw [List.append_assoc, List.cons_append, wordsOf_comment free, wordsOf_comment free]

theorem wordsOf_remark (line remark : List Char) : wordsOf (line ++ '#' :: remark) = wordsOf line := by
  by_cases h : '#' ∈ line
  · exact wordsOf_append_of_mem h _
  · rw [wordsOf_comment h, wordsOf_of_not_mem h]

theorem words_gap {front gap back : List Char} (blank : ∀ c ∈ gap, Text.isBlank c)
    (apart : front = [] ∨ back = [] ∨ gap ≠ []) :
    Text.words (front ++ (gap ++ back)) = Text.words front ++ Text.words back := by
  cases gap with
  | nil =>
    rcases apart with rfl | rfl | nonempty
    · rfl
    · exact (congrArg Text.words (List.append_nil front)).trans (List.append_nil _).symm
    · exact absurd rfl nonempty
  | cons c gap =>
    obtain ⟨hc, hgap⟩ := List.forall_mem_cons.1 blank
    rw [List.cons_append, Text.words_append_blank front hc, Text.words_append_of_blank hgap]

theorem wordsOf_gap (front back : List Char) {gap : List Char} (blank : ∀ c ∈ gap, Text.isBlank c)
    (apart : front = [] ∨ back = [] ∨ gap ≠ []) : wordsOf (front ++ (gap ++ back)) =
      if '#' ∈ front then wordsOf front else Text.words front ++ wordsOf back := by
  split
  case isTrue h => exact wordsOf_append_of_mem h _
  case isFalse h =>
    have free : '#' ∉ gap := fun hmem => absurd (blank _ hmem) (by decide)
    have cut : back = [] → back.takeWhile (· != '#') = [] := by
      rintro rfl
      rfl
    rw [wordsOf, takeWhile_append_of_not_mem h, takeWhile_append_of_not_mem free,
      words_gap blank (apart.imp_right (Or.imp_left cut)), wordsOf]

theorem wordsOf_blank {gap : List Char} (blank : ∀ c ∈ gap, Text.isBlank c) : wordsOf gap = [] := by
  have empty := wordsOf_gap [] [] blank (.inl rfl)
  rwa [List.nil_append, List.append_nil] at empty

theorem wordsOf_stripReturn (line : List Char) : wordsOf (Text.stripReturn line) = wordsOf line := by
  have blank : Text.isBlank '\r' := rfl
  have kept (front : List Char) : wordsOf (front ++ ['\r']) = wordsOf front := by
    have ended := wordsOf_gap front [] (List.forall_mem_singleton.2 blank) (.inr (.inl rfl))
    have bare := wordsOf_gap front [] (List.forall_mem_nil _) (.inr (.inl rfl))
    rw [List.append_nil] at ended bare
    rw [ended, ← bare, List.append_nil]
  rcases Text.stripReturn_eq_or line with same | ended
  · rw [← same]
  · conv_rhs => rw [ended, kept]

theorem ne_nil_of_mem_wordsOf {line w : List Char} (h : w ∈ wordsOf line) : w ≠ [] := by
  rintro rfl
  simp [wordsOf, Text.words] at h

end Words

section Entries

variable {ls : List (List Char)} {line : List Char}

theorem entry?_eq (line : List Char) : entry? line =
    if (wordsOf line).length ≤ 2 then some ((listed? (wordsOf line)).map targetOf).toList else none := by
  unfold entry? wordsOf
  generalize Text.words (line.takeWhile (· != '#')) = ws
  rcases ws with _ | ⟨address, _ | ⟨second, _ | ⟨third, more⟩⟩⟩
  · rfl
  · rfl
  · rfl
  · exact (if_neg (by simp)).symm

theorem entries_of_forall (h : ∀ line ∈ ls, (wordsOf line).length ≤ 2) (n : Nat) :
    entries n ls = .ok ((hosts ls).map targetOf) := by
  induction ls generalizing n with
  | nil => rfl
  | cons line ls ih =>
    obtain ⟨hline, hls⟩ := List.forall_mem_cons.1 h
    rw [entries, entry?_eq, if_pos hline, hosts, List.filterMap_cons]
    simp only [ih hls]
    cases listed? (wordsOf line) <;> rfl

theorem entries_of_first {before after : List (List Char)}
    (h : ∀ line ∈ before, (wordsOf line).length ≤ 2) (long : 2 < (wordsOf line).length) (n : Nat) :
    entries n (before ++ line :: after) = .error ⟨before.length + n⟩ := by
  induction before generalizing n with
  | nil => simp [entries, entry?_eq, Nat.not_le.2 long]
  | cons first before ih =>
    obtain ⟨hfirst, hbefore⟩ := List.forall_mem_cons.1 h
    rw [List.cons_append, entries, entry?_eq, if_pos hfirst]
    simp only [ih hbefore, List.length_cons]
    rw [Nat.add_right_comm, Nat.add_assoc]
    rfl

theorem forall_or_exists_first (ls : List (List Char)) :
    (∀ line ∈ ls, (wordsOf line).length ≤ 2) ∨
      ∃ before line after, ls = before ++ line :: after ∧
        (∀ line ∈ before, (wordsOf line).length ≤ 2) ∧ 2 < (wordsOf line).length := by
  cases first : ls.find? fun line => 2 < (wordsOf line).length with
  | none => exact .inl fun line hline => by simpa using List.find?_eq_none.1 first line hline
  | some line =>
    obtain ⟨long, before, after, split, short⟩ := List.find?_eq_some_iff_append.1 first
    exact .inr ⟨before, line, after, split, by simpa using short, by simpa using long⟩

theorem entries_congr {ls' : List (List Char)} (same : ls.map wordsOf = ls'.map wordsOf) (n : Nat) :
    entries n ls = entries n ls' := by
  induction ls generalizing ls' n with
  | nil => rw [List.map_eq_nil_iff.1 same.symm]
  | cons line ls ih =>
    obtain ⟨line', ls', rfl, here, rest⟩ := List.map_eq_cons_iff.1 same.symm
    rw [entries, entries, entry?_eq, entry?_eq, here, ih rest.symm]

theorem entries_concat_nil (ls : List (List Char)) (n : Nat) :
    entries n (ls ++ [[]]) = entries n ls := by
  induction ls generalizing n with
  | nil => rfl
  | cons line ls ih => rw [List.cons_append, entries, entries, ih]

theorem entries_lines (s : List Char) (n : Nat) :
    entries n (Text.lines s) = entries n (s.splitOn '\n') := by
  obtain ⟨front, last, parts⟩ : ∃ front last, Text.pieces (· == '\n') s = front ++ [last] :=
    ⟨_, _, (List.dropLast_append_getLast (Text.pieces_ne_nil s)).symm⟩
  have stripped (tail : List (List Char)) :
      entries n (front.map Text.stripReturn ++ tail) = entries n (front ++ tail) := by
    refine entries_congr ?_ n
    rw [List.map_append, List.map_append, List.map_map]
    exact congrArg (· ++ tail.map wordsOf) (List.map_congr_left fun line _ => wordsOf_stripReturn line)
  rw [List.splitOn_eq_splitOnP, ← Text.pieces_eq_splitOnP, Text.lines, parts, List.dropLast_concat,
    List.getLast?_concat, stripped]
  cases last with
  | nil => rw [entries_concat_nil, List.append_nil]
  | cons c cs => rfl

end Entries

section Listed

/-- `kept` has each element of `xs` once, in the order in which they first occur there. -/
structure IsFirsts {α : Type} [DecidableEq α] (kept xs : List α) : Prop where
  mem_iff : ∀ x, x ∈ kept ↔ x ∈ xs
  nodup : kept.Nodup
  ordered : kept.Pairwise fun x y => xs.idxOf x < xs.idxOf y

theorem isFirsts_keepFirst {α : Type} [DecidableEq α] (xs : List α) :
    IsFirsts (keepFirst id xs) xs where
  mem_iff _ := mem_keepFirst_id_iff
  nodup := nodup_keepFirst xs
  ordered := pairwise_idxOf_keepFirst xs

theorem targetOf_injOn (ls : List (List Char)) :
    ∀ h ∈ hosts ls, ∀ h' ∈ hosts ls, targetOf h = targetOf h' → h = h' := by
  have name {h : Listed} (listed : h ∈ hosts ls) : h.1 ≠ some "" := by
    obtain ⟨line, -, read⟩ := List.mem_filterMap.1 listed
    have nonempty : ∀ w ∈ wordsOf line, w ≠ [] := fun _ => ne_nil_of_mem_wordsOf
    unfold listed? at read
    split at read
    case h_1 => exact Option.some.inj read ▸ by simp
    case h_2 first address two =>
      rw [two] at nonempty
      rw [← Option.some.inj read]
      simpa [String.ofList_eq_empty_iff] using nonempty first List.mem_cons_self
    case h_3 => nomatch read
  -- two targets differ where their names and addresses do, but for a missing name and an empty one
  rintro ⟨name₁, address⟩ h₁ ⟨name₂, address₂⟩ h₂ same
  simp only [targetOf, Target.mk.injEq, List.cons.injEq] at same
  obtain ⟨jobs, -, -, rfl, -⟩ := same
  have first := name h₁
  have second := name h₂
  cases name₁ <;> cases name₂ <;> simp_all

end Listed

section Written

variable {ls ls' : List (List Char)}

def written (ls : List (List Char)) : String := String.ofList (['\n'].intercalate ls)

theorem read_eq (text : String) :
    read text = (entries 1 (text.toList.splitOn '\n')).map (keepFirst id) := by
  rw [read, entries_lines]

theorem read_written (h : ∀ line ∈ ls, '\n' ∉ line) :
    read (written ls) = (entries 1 ls).map (keepFirst id) := by
  rw [read_eq, written, String.toList_ofList]
  cases ls with
  | nil => rfl
  | cons line ls =>
    have free : ∀ l ∈ line :: ls, ∀ c ∈ l, (c == '\n') = false :=
      fun l hl c hc => beq_eq_false_iff_ne.2 fun e => h l hl (e ▸ hc)
    rw [List.splitOn_eq_splitOnP, ← Text.pieces_eq_splitOnP,
      Text.pieces_intercalate free rfl (List.cons_ne_nil _ _)]

theorem read_cases (text : String) :
    ((∀ line ∈ text.toList.splitOn '\n', (wordsOf line).length ≤ 2) ∧
      read text = .ok (keepFirst id ((hosts (text.toList.splitOn '\n')).map targetOf))) ∨
    ∃ before line after, text.toList.splitOn '\n' = before ++ line :: after ∧
      (∀ l ∈ before, (wordsOf l).length ≤ 2) ∧ 2 < (wordsOf line).length ∧
      read text = .error ⟨before.length + 1⟩ := by
  rw [read_eq]
  rcases forall_or_exists_first (text.toList.splitOn '\n') with
    short | ⟨before, line, after, split, short, long⟩
  · exact .inl ⟨short, by rw [entries_of_forall short]; rfl⟩
  · exact .inr ⟨before, line, after, split, short, long,
      by rw [split, entries_of_first short long]; rfl⟩

def targets? (ls : List (List Char)) : Option (List Target) :=
  if ∀ line ∈ ls, (wordsOf line).length ≤ 2 then some (keepFirst id ((hosts ls).map targetOf))
  else none

theorem toOption_entries (ls : List (List Char)) (n : Nat) :
    ((entries n ls).map (keepFirst id)).toOption = targets? ls := by
  rcases forall_or_exists_first ls with short | ⟨before, line, after, rfl, short, long⟩
  · rw [entries_of_forall short, targets?, if_pos short]
    rfl
  · rw [entries_of_first short long, targets?, if_neg]
    · rfl
    · exact fun all => absurd (all line (by simp)) (Nat.not_le.2 long)

theorem toOption_read_written (h : ∀ line ∈ ls, '\n' ∉ line) :
    (read (written ls)).toOption = targets? ls := by
  rw [read_written h, toOption_entries]

end Written

section Edit

/-- What may be done to the lines of a list without a change to its hosts. -/
inductive Edit : List (List Char) → List (List Char) → Prop
  | blank (above below : List (List Char)) {gap : List Char} (h : ∀ c ∈ gap, Text.isBlank c) :
    Edit (above ++ below) (above ++ gap :: below)
  | remark (above below : List (List Char)) (line text : List Char) :
    Edit (above ++ line :: below) (above ++ (line ++ '#' :: text) :: below)
  | again (above below : List (List Char)) {line : List Char} (h : line ∈ above) :
    Edit (above ++ below) (above ++ line :: below)
  | respace (above below : List (List Char)) (front back : List Char) {gap gap' : List Char}
    (h : ∀ c ∈ gap, Text.isBlank c) (h' : ∀ c ∈ gap', Text.isBlank c)
    (apart : front = [] ∨ back = [] ∨ gap ≠ [] ∧ gap' ≠ []) :
    Edit (above ++ (front ++ (gap ++ back)) :: below) (above ++ (front ++ (gap' ++ back)) :: below)

variable {above below : List (List Char)} {line line' : List Char}

theorem targets?_replace (same : wordsOf line = wordsOf line') :
    targets? (above ++ line :: below) = targets? (above ++ line' :: below) := by
  have words : (above ++ line :: below).map wordsOf = (above ++ line' :: below).map wordsOf := by
    simp [same]
  rw [← toOption_entries _ 1, entries_congr words, toOption_entries]

theorem hosts_append (above below : List (List Char)) :
    hosts (above ++ below) = hosts above ++ hosts below := List.filterMap_append

theorem mem_hosts_of_mem (h : line ∈ ls) {x : Listed} (hx : x ∈ hosts [line]) : x ∈ hosts ls := by
  obtain ⟨_, here, read⟩ := List.mem_filterMap.1 hx
  exact List.mem_filterMap.2 ⟨line, h, List.mem_singleton.1 here ▸ read⟩

theorem short_insert_iff (above below : List (List Char))
    (h : (∀ l ∈ above ++ below, (wordsOf l).length ≤ 2) → (wordsOf line).length ≤ 2) :
    (∀ l ∈ above ++ line :: below, (wordsOf l).length ≤ 2) ↔
      ∀ l ∈ above ++ below, (wordsOf l).length ≤ 2 := by
  rw [List.forall_mem_append] at h ⊢
  rw [List.forall_mem_cons, List.forall_mem_append]
  exact ⟨fun all => ⟨all.1, all.2.2⟩, fun all => ⟨all.1, h all, all.2⟩⟩

theorem targets?_insert (short : (∀ l ∈ above, (wordsOf l).length ≤ 2) → (wordsOf line).length ≤ 2)
    (met : ∀ h ∈ hosts [line], h ∈ hosts above) :
    targets? (above ++ line :: below) = targets? (above ++ below) := by
  have targets : keepFirst id ((hosts (above ++ line :: below)).map targetOf) =
      keepFirst id ((hosts (above ++ below)).map targetOf) := by
    rw [← List.singleton_append, hosts_append, hosts_append, hosts_append, List.map_append,
      List.map_append, List.map_append]
    refine keepFirst_append_of_met (fun t ht => ?_) _
    obtain ⟨h, listed, rfl⟩ := List.mem_map.1 ht
    exact ⟨_, List.mem_map_of_mem (met h listed), rfl⟩
  have shorts := short_insert_iff above below fun all => short (List.forall_mem_append.1 all).1
  rw [targets?, targets?, targets]
  simp only [shorts]

theorem targets?_perm (h : line ∈ below) :
    Option.Rel List.Perm (targets? (above ++ below)) (targets? (above ++ line :: below)) := by
  have targets : (keepFirst id ((hosts (above ++ below)).map targetOf)).Perm
      (keepFirst id ((hosts (above ++ line :: below)).map targetOf)) := by
    have named (x : Listed) : x ∈ hosts (above ++ below) ↔ x ∈ hosts (above ++ line :: below) := by
      rw [← List.singleton_append, hosts_append, hosts_append, hosts_append, List.mem_append,
        List.mem_append, List.mem_append]
      exact or_congr_right (or_iff_right_of_imp (mem_hosts_of_mem h)).symm
    refine keepFirst_perm fun t => ?_
    simp only [List.mem_map, named]
  have shorts := short_insert_iff above below fun all => all line (List.mem_append_right _ h)
  unfold targets?
  simp only [shorts]
  split
  · exact .some targets
  · exact .none

theorem targets?_of_edit (h : Edit ls ls') : targets? ls = targets? ls' := by
  cases h with
  | blank above below blank =>
    have empty := wordsOf_blank blank
    refine (targets?_insert (fun _ => by simp [empty]) fun h named => ?_).symm
    simp [hosts, listed?, empty] at named
  | remark above below line text => exact targets?_replace (wordsOf_remark line text).symm
  | again above below repeated =>
    exact (targets?_insert (fun all => all _ repeated) fun h => mem_hosts_of_mem repeated).symm
  | respace above below front back blank blank' apart =>
    refine targets?_replace ?_
    rw [wordsOf_gap front back blank (apart.imp_right (Or.imp_right And.left)),
      wordsOf_gap front back blank' (apart.imp_right (Or.imp_right And.right))]

def Edited (text text' : String) : Prop :=
  ∃ ls ls', Edit ls ls' ∧ (∀ line ∈ ls ++ ls', '\n' ∉ line) ∧ text = written ls ∧ text' = written ls'

theorem toOption_read_of_edited {text text' : String} (h : Relation.EqvGen Edited text text') :
    (read text).toOption = (read text').toOption := by
  induction h with
  | rel text text' edited =>
    obtain ⟨ls, ls', edit, free, rfl, rfl⟩ := edited
    obtain ⟨free, free'⟩ := List.forall_mem_append.1 free
    rw [toOption_read_written free, toOption_read_written free', targets?_of_edit edit]
  | refl text => rfl
  | symm _ _ _ ih => exact ih.symm
  | trans _ _ _ _ _ first second => exact first.trans second

end Edit

/-- A list is read if no line has more than two words before its comment, or else its first such line
is told. The hosts are those of the lines, each where it is first named; and neither empty lines,
comments, spacing and repetitions nor any number of changes to them make a difference. -/
theorem read_exact :
    (∀ text, (∃ ts, read text = .ok ts) ↔
      ∀ line ∈ text.toList.splitOn '\n', (wordsOf line).length ≤ 2) ∧
    (∀ text b, read text = .error b ↔ ∃ before line after,
      text.toList.splitOn '\n' = before ++ line :: after ∧
        (∀ l ∈ before, (wordsOf l).length ≤ 2) ∧ 2 < (wordsOf line).length ∧
        b.number = before.length + 1) ∧
    (∀ text ts, read text = .ok ts → ts.Nodup ∧
      ∃ kept, IsFirsts kept (hosts (text.toList.splitOn '\n')) ∧ ts = kept.map targetOf) ∧
    (∀ text text', Relation.EqvGen Edited text text' →
      (read text).toOption = (read text').toOption) ∧
    ∀ above below line, line ∈ below → (∀ l ∈ above ++ line :: below, '\n' ∉ l) →
      Option.Rel List.Perm (read (written (above ++ below))).toOption
        (read (written (above ++ line :: below))).toOption := by
  refine ⟨fun text => ?_, fun text b => ?_, fun text ts read => ?_,
    fun text text' => toOption_read_of_edited, fun above below line h free => ?_⟩
  · rcases read_cases text with ⟨short, ok⟩ | ⟨before, line, after, split, -, long, error⟩
    · exact ⟨fun _ => short, fun _ => ⟨_, ok⟩⟩
    · rw [error, split]
      refine ⟨fun ⟨_, ok⟩ => (nomatch ok), fun short => ?_⟩
      exact absurd (short line (by simp)) (Nat.not_le.2 long)
  · constructor
    · intro bad
      rcases read_cases text with ⟨-, ok⟩ | ⟨before, line, after, split, short, long, error⟩
      · nomatch ok.symm.trans bad
      · have told := Except.error.inj (error.symm.trans bad)
        exact ⟨before, line, after, split, short, long, told ▸ rfl⟩
    · rintro ⟨before, line, after, split, short, long, number⟩
      rw [read_eq, split, entries_of_first short long, ← number]
      rfl
  · rcases read_cases text with ⟨-, ok⟩ | ⟨before, line, after, -, -, -, error⟩
    · rw [← Except.ok.inj (ok.symm.trans read)]
      refine ⟨nodup_keepFirst _, _, isFirsts_keepFirst _, ?_⟩
      rw [keepFirst_map, ← keepFirst_of_injOn (targetOf_injOn _)]
      rfl
    · nomatch error.symm.trans read
  · have less : ∀ l ∈ above ++ below, '\n' ∉ l := by
      rw [List.forall_mem_append, List.forall_mem_cons] at free
      exact List.forall_mem_append.2 ⟨free.1, free.2.2⟩
    rw [toOption_read_written free, toOption_read_written less]
    exact targets?_perm h

def frontend : List (List Char) := ["10.0.0.1".toList, "web-1 10.0.0.2".toList]

def frontendRemarked : List (List Char) :=
  ["10.0.0.1".toList, "web-1 10.0.0.2".toList ++ '#' :: " frontend\r".toList]

theorem read_exact_frontend :
    (read "\n10.0.0.1\r\nweb-1\t10.0.0.2 # frontend\n 10.0.0.1" =
        .ok [targetOf (none, "10.0.0.1"), targetOf (some "web-1", "10.0.0.2")] ∧
      [targetOf (none, "10.0.0.1"), targetOf (some "web-1", "10.0.0.2")].Nodup) ∧
    (Relation.EqvGen Edited (written frontend) (written frontendRemarked) ∧
      (read (written frontend)).toOption = (read (written frontendRemarked)).toOption) ∧
    ("10.0.0.1".toList ∈ frontend ∧
      (∀ l ∈ ["10.0.0.9".toList] ++ "10.0.0.1".toList :: frontend, '\n' ∉ l) ∧
      Option.Rel List.Perm (read (written (["10.0.0.9".toList] ++ frontend))).toOption
        (read (written (["10.0.0.9".toList] ++ "10.0.0.1".toList :: frontend))).toOption) := by
  obtain ⟨-, -, firsts, edited, perm⟩ := read_exact
  have ok : read "\n10.0.0.1\r\nweb-1\t10.0.0.2 # frontend\n 10.0.0.1" =
      .ok [targetOf (none, "10.0.0.1"), targetOf (some "web-1", "10.0.0.2")] := by
    rfl
  have remarked : Relation.EqvGen Edited (written frontend) (written frontendRemarked) :=
    .rel _ _ ⟨frontend, frontendRemarked, .remark ["10.0.0.1".toList] [] _ _, by decide, rfl, rfl⟩
  have listed : "10.0.0.1".toList ∈ frontend := List.mem_cons_self
  have free : ∀ l ∈ ["10.0.0.9".toList] ++ "10.0.0.1".toList :: frontend, '\n' ∉ l := by decide
  exact ⟨⟨ok, (firsts _ _ ok).1⟩, ⟨remarked, edited _ _ remarked⟩,
    listed, free, perm ["10.0.0.9".toList] frontend _ listed free⟩

end FleetPosture.Fleet.HostList
