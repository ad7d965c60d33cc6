import FleetPosture.FileListing
import FleetPosture.Proofs.Text.Lines
import FleetPosture.Proofs.Text.Numeral
import Mathlib.Data.Nat.Bitwise

/-! Which lines of a listing name a file, and which of these files every user may read. A line is
read by itself, so that what stands in one line has no effect on another. -/

namespace FleetPosture.FileListing

variable {line mode path : List Char}

def GrantsReading (mode : List Char) : Prop :=
  ∃ left sign digits last right,
    mode = left ++ (sign ++ (digits ++ [last])) ++ right ∧
    (∀ c ∈ left, Text.isBlank c) ∧ (∀ c ∈ right, Text.isBlank c) ∧
    (sign = [] ∨ sign = ['+']) ∧ (∀ c ∈ digits, '0' ≤ c ∧ c ≤ '7') ∧ ('4' ≤ last ∧ last ≤ '7') ∧
    Nat.ofDigitChars 8 (digits ++ [last]) 0 < 2 ^ 32

/-- The line has a mode that lets every user read, a tab and the path. The tab is the first one in the
line, and all carriage returns at the end of the line are left out of the path. -/
def NamesOpenFile (line path : List Char) : Prop :=
  ∃ mode returns, line = mode ++ '\t' :: (path ++ returns) ∧ '\t' ∉ mode ∧ GrantsReading mode ∧
    path ≠ [] ∧ path.getLast? ≠ some '\r' ∧ ∀ c ∈ returns, c = '\r'

section Mode

theorem isWorldReadable_iff (f : FileEntry) : f.isWorldReadable ↔ 4 ≤ f.permissions.toNat % 8 := by
  have bit : (f.permissions &&& 4).toNat = (f.permissions.toNat.testBit 2).toNat * 4 :=
    (UInt32.toNat_and _ _).trans (Nat.and_two_pow _ 2)
  have zero : (0 : UInt32).toNat = 0 := rfl
  have digit : f.permissions.toNat / 2 ^ 2 % 2 = 1 ↔ 4 ≤ f.permissions.toNat % 8 := by omega
  rw [FileEntry.isWorldReadable, bne_iff_ne, ne_eq, ← UInt32.toNat_inj, bit, zero,
    Nat.testBit_eq_decide_div_mod_eq, ← digit]
  simp

theorem isDigitOf_eight_iff {c : Char} : Text.IsDigitOf 8 c ↔ '0' ≤ c ∧ c ≤ '7' :=
  and_congr_right fun _ => Nat.lt_succ_iff

theorem isDigitOf_eight_and_iff {c : Char} :
    Text.IsDigitOf 8 c ∧ 4 ≤ c.toNat - '0'.toNat ↔ '4' ≤ c ∧ c ≤ '7' := by
  show (48 ≤ c.toNat ∧ c.toNat < 48 + 8) ∧ 4 ≤ c.toNat - 48 ↔ 52 ≤ c.toNat ∧ c.toNat ≤ 55
  omega

theorem ofDigitChars_mod_eight (digits : List Char) {last : Char} (h : Text.IsDigitOf 8 last) :
    Nat.ofDigitChars 8 (digits ++ [last]) 0 % 8 = last.toNat - '0'.toNat := by
  have small : last.toNat - '0'.toNat < 8 := Nat.sub_lt_left_of_lt_add h.1 h.2
  rw [Nat.ofDigitChars_append, Nat.ofDigitChars_cons, Nat.ofDigitChars_nil, Nat.mul_add_mod,
    Nat.mod_eq_of_lt small]

theorem unbroken_numeral {sign digits : List Char} (hsign : sign = [] ∨ sign = ['+'])
    (octal : ∀ c ∈ digits, Text.IsDigitOf 8 c) : Text.Unbroken (sign ++ digits) := by
  refine Text.unbroken_append.2 ⟨?_, fun c hc => ?_⟩
  · rcases hsign with rfl | rfl <;> decide
  · exact Text.isBlank_of_isDigit ((octal c hc).isDigit (by decide))

theorem grantsReading_iff : GrantsReading mode ↔
    ∃ n, Text.numeral? 8 Text.maxU32 (Text.trim mode) = some n ∧ 4 ≤ n % 8 := by
  constructor
  · rintro ⟨left, sign, digits, last, right, rfl, hl, hr, hsign, hdigits, hlast, small⟩
    obtain ⟨final, grants⟩ := isDigitOf_eight_and_iff.2 hlast
    have octal : ∀ c ∈ digits ++ [last], Text.IsDigitOf 8 c := by
      rw [List.forall_mem_append, List.forall_mem_singleton]
      exact ⟨fun c hc => isDigitOf_eight_iff.2 (hdigits c hc), final⟩
    refine ⟨Nat.ofDigitChars 8 (digits ++ [last]) 0, ?_, ?_⟩
    · rw [Text.trim_surrounded hl hr, Text.trim_of_unbroken (unbroken_numeral hsign octal),
        Text.numeral?_eq_some_iff (by decide)]
      exact ⟨sign, _, hsign, rfl, by simp, octal, rfl, Nat.le_of_lt_succ small⟩
    · rwa [ofDigitChars_mod_eight digits final]
  · rintro ⟨n, value, grants⟩
    obtain ⟨sign, ds, hsign, trimmed, nonempty, octal, rfl, small⟩ :=
      (Text.numeral?_eq_some_iff (by decide)).1 value
    obtain ⟨digits, last, rfl⟩ := (List.eq_nil_or_concat' ds).resolve_left nonempty
    obtain ⟨left, right, whole, hl, hr⟩ := Text.exists_trim mode
    rw [List.forall_mem_append, List.forall_mem_singleton] at octal
    obtain ⟨octal, final⟩ := octal
    rw [ofDigitChars_mod_eight digits final] at grants
    exact ⟨left, sign, digits, last, right, trimmed ▸ whole, hl, hr, hsign,
      fun c hc => isDigitOf_eight_iff.1 (octal c hc), isDigitOf_eight_and_iff.1 ⟨final, grants⟩,
      Nat.lt_succ_of_le small⟩

end Mode

section Line

theorem readLine?_eq_some_iff {f : FileEntry} : readLine? line = some f ↔
    ∃ mode path returns n, line = mode ++ '\t' :: (path ++ returns) ∧ '\t' ∉ mode ∧
      Text.numeral? 8 Text.maxU32 (Text.trim mode) = some n ∧ path ≠ [] ∧
      path.getLast? ≠ some '\r' ∧ (∀ c ∈ returns, c = '\r') ∧
      f = ⟨String.ofList path, UInt32.ofNat n⟩ := by
  have last {mode path : List Char} (nonempty : path ≠ []) :
      (mode ++ '\t' :: path).getLast? = path.getLast? := by
    rw [List.getLast?_append_of_ne_nil _ (List.cons_ne_nil _ _),
      List.getLast?_cons_of_ne_nil nonempty]
  simp only [readLine?, bind, Option.bind_eq_some_iff, Prod.exists, Text.cutFirst?_eq_some_iff,
    Text.trimEndWhile_eq_iff, Option.ite_none_left_eq_some, List.isEmpty_iff, Option.some.injEq,
    beq_iff_eq, beq_eq_false_iff_ne, List.append_assoc, List.cons_append]
  constructor
  · rintro ⟨mode, path, ⟨⟨returns, rfl, trimmed, kept⟩, noTab⟩, n, value, nonempty, rfl⟩
    rw [last nonempty] at kept
    exact ⟨mode, path, returns, n, rfl, noTab, value, nonempty, fun h => kept _ h rfl, trimmed, rfl⟩
  · rintro ⟨mode, path, returns, n, rfl, noTab, value, nonempty, kept, trimmed, rfl⟩
    refine ⟨mode, path, ⟨⟨returns, rfl, trimmed, ?_⟩, noTab⟩, n, value, nonempty, rfl⟩
    rw [last nonempty]
    rintro c hc rfl
    exact kept hc

def openPath? (line : List Char) : Option (List Char) :=
  ((readLine? line).filter FileEntry.isWorldReadable).map (·.path.toList)

theorem openPath?_eq_some_iff : openPath? line = some path ↔ NamesOpenFile line path := by
  have entry {mode p : List Char} {n : Nat}
      (value : Text.numeral? 8 Text.maxU32 (Text.trim mode) = some n) :
      FileEntry.isWorldReadable ⟨String.ofList p, UInt32.ofNat n⟩ ↔ 4 ≤ n % 8 := by
    have own : (UInt32.ofNat n).toNat = n :=
      UInt32.toNat_ofNat_of_lt' (Nat.lt_succ_of_le (Text.le_of_numeral? value))
    rw [isWorldReadable_iff, own]
  simp only [openPath?, Option.map_eq_some_iff, Option.filter_eq_some_iff, readLine?_eq_some_iff,
    NamesOpenFile, grantsReading_iff]
  constructor
  · rintro ⟨_, ⟨⟨mode, path, returns, n, rfl, noTab, value, nonempty, kept, trimmed, rfl⟩, opened⟩,
      rfl⟩
    rw [String.toList_ofList]
    exact ⟨mode, returns, rfl, noTab, ⟨n, value, (entry value).1 opened⟩, nonempty, kept, trimmed⟩
  · rintro ⟨mode, returns, rfl, noTab, ⟨n, value, opened⟩, nonempty, kept, trimmed⟩
    exact ⟨_, ⟨⟨mode, path, returns, n, rfl, noTab, value, nonempty, kept, trimmed, rfl⟩,
      (entry value).2 opened⟩, String.toList_ofList⟩

end Line

section Listing

theorem readLine?_stripReturn (line : List Char) :
    readLine? (Text.stripReturn line) = readLine? line := by
  rw [readLine?, readLine?, Text.trimEndWhile_stripReturn]

theorem read_eq (text : String) : read text = (text.toList.splitOn '\n').filterMap readLine? :=
  Text.filterMap_lines rfl readLine?_stripReturn _

def openPaths (files : List FileEntry) : List (List Char) :=
  (files.filter FileEntry.isWorldReadable).map (·.path.toList)

theorem openPaths_read (text : String) :
    openPaths (read text) = (text.toList.splitOn '\n').filterMap openPath? := by
  rw [openPaths, read_eq, List.filter_filterMap, List.map_filterMap]
  rfl

end Listing

end FleetPosture.FileListing
