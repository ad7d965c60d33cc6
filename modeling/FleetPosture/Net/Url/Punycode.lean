/-!
Labels of host names with characters outside ASCII, written in ASCII: the ASCII characters, and then
for the others, in ascending order, how far each lies after the one before, in digits of base 36
whose thresholds adapt to the distances.
-/

namespace FleetPosture.Net.Url.Punycode

def digit (n : Nat) : Char := if n < 26 then Char.ofNat (0x61 + n) else Char.ofNat (0x30 + n - 26)

def threshold (k bias : Nat) : Nat :=
  if k ≤ bias then 1 else if bias + 26 ≤ k then 26 else k - bias

theorem threshold_pos (k bias : Nat) : 1 ≤ threshold k bias := by
  unfold threshold
  split
  · omega
  · split <;> omega

def adaptFrom (delta k : Nat) : Nat :=
  if 455 < delta then adaptFrom (delta / 35) (k + 36) else k + 36 * delta / (delta + 38)
termination_by delta

def adapt (delta count : Nat) (isFirst : Bool) : Nat :=
  let d := if isFirst then delta / 700 else delta / 2
  adaptFrom (d + d / count) 0

def digits (bias k q : Nat) : List Char :=
  let t := threshold k bias
  if q < t then [digit q]
  else digit (t + (q - t) % (36 - t)) :: digits bias (k + 36) ((q - t) / (36 - t))
termination_by q
decreasing_by
  have := threshold_pos k bias
  exact Nat.lt_of_le_of_lt (Nat.div_le_self _ _) (by omega)

structure State where
  output : List Char
  delta : Nat
  bias : Nat
  count : Nat

def State.pass (basic n : Nat) (s : State) (c : Char) : State :=
  if c.toNat < n then { s with delta := s.delta + 1 }
  else if c.toNat = n then
    ⟨s.output ++ digits s.bias 36 s.delta, 0, adapt s.delta (s.count + 1) (s.count = basic),
      s.count + 1⟩
  else s

/-- Writes the characters with each code point in turn; `previous` is the one written last. -/
def write (label : List Char) (basic : Nat) : Nat → List Nat → State → State
  | _, [], s => s
  | previous, n :: rest, s =>
    let s := { s with delta := s.delta + (n - previous) * (s.count + 1) }
    let s := label.foldl (State.pass basic n) s
    write label basic (n + 1) rest { s with delta := s.delta + 1 }

def isBasic (c : Char) : Bool := c.toNat < 0x80

def label (cs : List Char) : List Char :=
  if cs.all isBasic then cs
  else
    let basic := cs.filter isBasic
    let points := (((cs.filter fun c => !isBasic c).map Char.toNat).mergeSort (· ≤ ·)).eraseDups
    let start : List Char := if basic.isEmpty then [] else basic ++ ['-']
    "xn--".toList ++ (write cs basic.length 0x80 points ⟨start, 0, 72, basic.length⟩).output

end FleetPosture.Net.Url.Punycode
