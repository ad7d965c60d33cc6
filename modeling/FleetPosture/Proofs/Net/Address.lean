import FleetPosture.Proofs.Text.Pieces
import FleetPosture.Snapshot.Basic
import FleetPosture.Tls.ServerName

/-! Addresses in brackets. The brackets are taken off where an address is looked up, so that both
spellings lead to the same place; but a text in brackets is itself neither an address nor a host
name. -/

namespace FleetPosture.Net

def inBrackets (a : String) : String := "[" ++ a ++ "]"

theorem toList_inBrackets (a : String) : (inBrackets a).toList = '[' :: (a.toList ++ [']']) := by
  simp only [inBrackets, String.toList_append]
  rfl

theorem bareAddress_inBrackets (a : String) :
    Port.bareAddress (inBrackets a) = Port.bareAddress a := by
  have opened : (inBrackets a).toList.dropWhile (· == '[') =
      (a.toList ++ [']']).dropWhile (· == '[') := by
    rw [toList_inBrackets]
    rfl
  rw [Port.bareAddress, Port.bareAddress, opened, List.dropWhile_append]
  split
  case isTrue nothing =>
    rw [List.isEmpty_iff.1 nothing]
    rfl
  case isFalse =>
    rw [List.reverse_append]
    rfl

namespace Address

variable {l : Leniency} {s : List Char}

theorem digits?_eq_none {radix : Nat} {c : Char} (h : Text.digitValue? radix c = none) :
    Text.digits? radix (c :: s) = none := by
  rw [Text.digits?, if_neg (by simp), Text.digitsFrom?, List.foldlM_cons, h]
  rfl

theorem octet?_bracket : octet? l ('[' :: s) = none := by
  rw [octet?, digits?_eq_none (by decide)]
  split <;> rfl

theorem octets?_bracket : octets? l ('[' :: s) = none := by
  obtain ⟨w, ws, first⟩ := Text.exists_pieces_cons (p := (· == '.')) (c := '[') rfl s
  simp only [octets?, first, List.mapM_cons, octet?_bracket]
  split <;> rfl

theorem group?_bracket : group? ('[' :: s) = none := by
  rw [group?, digits?_eq_none (by decide)]
  split <;> rfl

theorem groups?_bracket {tail : Bool} {gs : List (List Char)} :
    groups? l tail (('[' :: s) :: gs) = none := by
  cases gs with
  | nil =>
    rw [groups?, group?_bracket, octets?_bracket]
    cases tail <;> rfl
  | cons g gs =>
    rw [groups?, group?_bracket]
    · rfl
    · exact fun h => nomatch h

theorem groups?_pieces_bracket {tail : Bool} :
    groups? l tail (Text.pieces (· == ':') ('[' :: s)) = none := by
  obtain ⟨w, ws, first⟩ := Text.exists_pieces_cons (p := (· == ':')) (c := '[') rfl s
  rw [first, groups?_bracket]

theorem ofText6?_bracket : ofText6? l ('[' :: s) = none := by
  have cut : cutGap? ('[' :: s) = (cutGap? s).map (Prod.map ('[' :: ·) id) := rfl
  rw [ofText6?, cut]
  cases cutGap? s with
  | none => simp only [Option.map_none, groups?_pieces_bracket]; rfl
  | some parts => simp only [Option.map_some, Prod.map, stretch?, groups?_pieces_bracket]; rfl

theorem parse?_inBrackets (a : String) : parse? (inBrackets a) = none := by
  rw [parse?, toList_inBrackets, ofChars?, ofText4?, octets?_bracket, ofText6?_bracket]
  rfl

end Address
end FleetPosture.Net

namespace FleetPosture.Tls

open Net (inBrackets)

theorem isHostName_inBrackets (a : String) : isHostName (inBrackets a) = false := by
  have last : ('[' :: (a.toList ++ [']'])).getLast? ≠ some '.' := by
    rw [← List.cons_append, List.getLast?_concat]
    decide
  obtain ⟨w, ws, first⟩ :=
    Text.exists_pieces_cons (p := (· == '.')) (c := '[') rfl (a.toList ++ [']'])
  have label : isLabel ('[' :: w) = false := by simp [isLabel, isLabelChar]
  rw [isHostName, Net.toList_inBrackets]
  simp only [if_neg last, first, List.all_cons, label, Bool.false_and, Bool.and_false]

theorem isServerName_inBrackets (a : String) : isServerName (inBrackets a) = false := by
  rw [isServerName, Net.Address.parse?_inBrackets, isHostName_inBrackets]
  rfl

end FleetPosture.Tls
