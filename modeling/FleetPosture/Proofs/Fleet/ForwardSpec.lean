import FleetPosture.Fleet.Gateway
import FleetPosture.Proofs.Text.Numeral
import FleetPosture.Proofs.Text.Pieces
import Mathlib.Logic.Function.Basic

/-! How ssh reads the text of a forward. The fields end at colons, save that one in brackets ends with
them, so that the colons of an address inside do not count. -/

namespace FleetPosture.Fleet

open Text

section Reading

def field? : List Char → Option (List Char × List Char)
  | '[' :: s => do
    let (field, rest) ← cutFirst? ']' s
    match rest with
    | ':' :: rest => some (field, rest)
    | _ => none
  | s => cutFirst? ':' s

/-- The host whose port is bound, and the forward. -/
def Forward.ofSpec? (spec : String) : Option (String × Forward) := do
  let (bound, rest) ← field? spec.toList
  let (localPort, rest) ← field? rest
  let (address, port) ← field? rest
  return (String.ofList bound, ⟨← uint16? localPort, String.ofList address, ← uint16? port⟩)

def Unbracketed (address : String) : Prop := '[' ∉ address.toList ∧ ']' ∉ address.toList

instance (address : String) : Decidable (Unbracketed address) := inferInstanceAs (Decidable (_ ∧ _))

end Reading

section Writing

def writtenAddress (a : List Char) : List Char := if a.contains ':' then '[' :: (a ++ [']']) else a

theorem toList_spec (f : Forward) :
    f.spec.toList = loopback.toList ++ ':' :: (Nat.toDigits 10 f.localPort.toNat ++
      ':' :: (writtenAddress f.address.toList ++ ':' :: Nat.toDigits 10 f.port.toNat)) := by
  have address : (if f.address.toList.contains ':' then "[" ++ f.address ++ "]"
      else f.address).toList = writtenAddress f.address.toList := by
    rw [writtenAddress]
    split
    · simp only [String.toList_append]
      rfl
    · rfl
  simp only [Forward.spec, String.toList_append, Nat.toString_eq_repr, Nat.toList_repr, address,
    List.append_assoc]
  rfl

end Writing

variable {a rest : List Char}

theorem field?_append (plain : ':' ∉ a) (opening : '[' ∉ a) :
    field? (a ++ ':' :: rest) = some (a, rest) := by
  have cut : cutFirst? ':' (a ++ ':' :: rest) = some (a, rest) := cutFirst?_append plain rest
  cases a with
  | nil => exact cut
  | cons c a =>
    have other : c ≠ '[' := (List.ne_and_not_mem_of_not_mem_cons opening).1.symm
    rw [← cut, List.cons_append, field?]
    rintro s ⟨⟩
    exact other rfl

theorem field?_digits (n : Nat) : field? (Nat.toDigits 10 n ++ ':' :: rest) =
    some (Nat.toDigits 10 n, rest) :=
  field?_append (not_mem_toDigits rfl n) (not_mem_toDigits rfl n)

theorem field?_writtenAddress (opening : '[' ∉ a) (closing : ']' ∉ a) :
    field? (writtenAddress a ++ ':' :: rest) = some (a, rest) := by
  rw [writtenAddress]
  split
  · rw [List.cons_append, List.append_assoc, List.singleton_append, field?,
      cutFirst?_append closing]
    rfl
  · next plain => exact field?_append (by simpa using plain) opening

theorem ofSpec?_spec {f : Forward} (h : Unbracketed f.address) :
    Forward.ofSpec? f.spec = some (loopback, f) := by
  have bound (rest : List Char) :
      field? (loopback.toList ++ ':' :: rest) = some (loopback.toList, rest) :=
    field?_append (by decide) (by decide)
  simp only [Forward.ofSpec?, toList_spec, bound, field?_digits, field?_writtenAddress h.1 h.2,
    uint16?_toDigits, Option.bind_eq_bind, Option.bind_some, String.ofList_toList]
  rfl

theorem writtenAddress_injective : Function.Injective writtenAddress := by
  -- brackets stand around exactly the addresses with a colon, and do not hide it
  have colon (a : List Char) : ':' ∈ writtenAddress a ↔ ':' ∈ a := by
    rw [writtenAddress]
    split <;> simp
  intro a b same
  have alike : ':' ∈ a ↔ ':' ∈ b := by rw [← colon a, same, colon b]
  by_cases h : ':' ∈ a
  · have inner : '[' :: (a ++ [']']) = '[' :: (b ++ [']']) := by
      simpa [writtenAddress, h, alike.1 h] using same
    exact List.append_cancel_right (List.cons.inj inner).2
  · simpa [writtenAddress, h, mt alike.2 h] using same

theorem spec_injective : Function.Injective Forward.spec := by
  intro f g same
  have texts := congrArg String.toList same
  rw [toList_spec, toList_spec] at texts
  have texts := (List.cons.inj (List.append_cancel_left texts)).2
  -- the local port ends at the first colon, the other port begins after the last one
  have first := congrArg (cutFirst? ':') texts
  rw [cutFirst?_append (not_mem_toDigits rfl _), cutFirst?_append (not_mem_toDigits rfl _)] at first
  obtain ⟨localPorts, others⟩ := Prod.mk.inj (Option.some.inj first)
  have last := congrArg (cutLast? ':') others
  rw [cutLast?_append _ (not_mem_toDigits rfl _), cutLast?_append _ (not_mem_toDigits rfl _)] at last
  obtain ⟨addresses, ports⟩ := Prod.mk.inj (Option.some.inj last)
  have number {m n : UInt16} (h : Nat.toDigits 10 m.toNat = Nat.toDigits 10 n.toNat) : m = n :=
    Option.some.inj ((uint16?_toDigits m).symm.trans ((congrArg uint16? h).trans (uint16?_toDigits n)))
  obtain ⟨localPort, address, port⟩ := f
  obtain ⟨localPort', address', port'⟩ := g
  obtain rfl : localPort = localPort' := number localPorts
  obtain rfl : port = port' := number ports
  obtain rfl : address = address' := String.toList_inj.1 (writtenAddress_injective addresses)
  rfl

end FleetPosture.Fleet
