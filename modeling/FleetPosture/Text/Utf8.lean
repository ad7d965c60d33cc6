/-!
Text as bytes. `utf8` writes a text; reading cuts the bytes into characters and ill-formed
stretches, each stretch being the longest start of some character's encoding, or one byte.
-/

namespace FleetPosture.Text

abbrev Bytes := List UInt8

def utf8 (s : String) : Bytes := s.toList.flatMap String.utf8EncodeChar

/-- What reading finds: a character, a stretch of bytes that no character continues, or the bytes
at the end that a character could still continue. -/
inductive Utf8Piece
  | char (c : Char)
  | ill (length : Nat)
  | cut (length : Nat)
deriving DecidableEq, Repr

/-- The bits and bytes read of a character, how many bytes are still to come, and the bounds of the
next one. -/
structure Utf8Partial where
  bits : Nat
  seen : Nat
  missing : Nat
  low : UInt8
  high : UInt8

def utf8Start (b : UInt8) : Option (Char ⊕ Utf8Partial) :=
  if b < 0x80 then some (.inl (Char.ofNat b.toNat))
  else if 0xc2 ≤ b ∧ b ≤ 0xdf then some (.inr ⟨b.toNat - 0xc0, 1, 1, 0x80, 0xbf⟩)
  else if b = 0xe0 then some (.inr ⟨0, 1, 2, 0xa0, 0xbf⟩)
  else if b = 0xed then some (.inr ⟨0xd, 1, 2, 0x80, 0x9f⟩)
  else if 0xe1 ≤ b ∧ b ≤ 0xef then some (.inr ⟨b.toNat - 0xe0, 1, 2, 0x80, 0xbf⟩)
  else if b = 0xf0 then some (.inr ⟨0, 1, 3, 0x90, 0xbf⟩)
  else if b = 0xf4 then some (.inr ⟨4, 1, 3, 0x80, 0x8f⟩)
  else if 0xf1 ≤ b ∧ b ≤ 0xf3 then some (.inr ⟨b.toNat - 0xf0, 1, 3, 0x80, 0xbf⟩)
  else none

def utf8PiecesFrom : Option Utf8Partial → Bytes → List Utf8Piece
  | none, [] => []
  | some p, [] => [.cut p.seen]
  | none, b :: bs =>
    match utf8Start b with
    | none => .ill 1 :: utf8PiecesFrom none bs
    | some (.inl c) => .char c :: utf8PiecesFrom none bs
    | some (.inr p) => utf8PiecesFrom (some p) bs
  | some p, b :: bs =>
    if p.low ≤ b ∧ b ≤ p.high then
      let bits := p.bits * 64 + (b.toNat - 0x80)
      if p.missing = 1 then .char (Char.ofNat bits) :: utf8PiecesFrom none bs
      else utf8PiecesFrom (some ⟨bits, p.seen + 1, p.missing - 1, 0x80, 0xbf⟩) bs
    else
      .ill p.seen ::
        match utf8Start b with
        | none => .ill 1 :: utf8PiecesFrom none bs
        | some (.inl c) => .char c :: utf8PiecesFrom none bs
        | some (.inr q) => utf8PiecesFrom (some q) bs

def utf8Pieces (bs : Bytes) : List Utf8Piece := utf8PiecesFrom none bs

/-- The text of the bytes, with U+FFFD for each ill-formed stretch. -/
def utf8Lossy (bs : Bytes) : String :=
  String.ofList <| (utf8Pieces bs).map fun
    | .char c => c
    | .ill _ => '\ufffd'
    | .cut _ => '\ufffd'

structure Utf8Fault where
  index : Nat
  length : Option Nat
deriving DecidableEq, Repr

def Utf8Fault.message (e : Utf8Fault) : String :=
  match e.length with
  | some n => "invalid utf-8 sequence of " ++ toString n ++ " bytes from index " ++ toString e.index
  | none => "incomplete utf-8 byte sequence from index " ++ toString e.index

def utf8Collect : Nat → List Utf8Piece → Except Utf8Fault (List Char)
  | _, [] => .ok []
  | offset, .char c :: ps => (utf8Collect (offset + c.utf8Size) ps).map (c :: ·)
  | offset, .ill n :: _ => .error ⟨offset, some n⟩
  | offset, .cut _ :: _ => .error ⟨offset, none⟩

def utf8Decode (bs : Bytes) : Except Utf8Fault String :=
  (utf8Collect 0 (utf8Pieces bs)).map String.ofList

end FleetPosture.Text
