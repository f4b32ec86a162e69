/-!
# Punycode

An identifier beyond ASCII is written as its ASCII characters and a row of digits in base
36 that tells where the other characters go (RFC 3492).  `Punycode.decode?` puts them in.
Each digit moves a `State` on: it adds to a number, and the digit that ends the number
inserts a character.  Only identifiers of up to 128 characters are decoded, and numbers
stay below 2⁶⁴.
-/

namespace MachImage.Mangling.Punycode

/-- The characters that a decoded identifier may have. -/
def maxLength : Nat := 128

/-- Where decoding stands: the text so far, the place and code point of the last insertion,
and the number being read with the weight and threshold of its next digit. -/
structure State where
  text : List Char
  place : Nat := 0
  code : Nat := 0x80
  bias : Nat := 72
  damp : Nat := 700
  number : Nat := 0
  weight : Nat := 1
  step : Nat := 36
  deriving DecidableEq, Repr

/-- The value of a digit. -/
def digit? (c : Char) : Option Nat :=
  if 'a' ≤ c ∧ c ≤ 'z' then some (c.toNat - 'a'.toNat)
  else if c.isDigit then some (26 + (c.toNat - '0'.toNat))
  else none

/-- A number that fits a machine word. -/
def word? (n : Nat) : Option Nat := if n < UInt64.size then some n else none

/-- The bias that a number leaves behind, `shift` steps of which are already counted. -/
def biasFrom (delta shift : Nat) : Nat :=
  if delta > 455 then biasFrom (delta / 35) (shift + 36)
  else shift + 36 * delta / (delta + 38)
termination_by delta
decreasing_by omega

namespace State

/-- The smallest digit that does not end the number being read. -/
def threshold (s : State) : Nat := min (max (s.step - s.bias) 1) 26

/-- Inserts the character that the number `n` tells. -/
def insert? (s : State) (n : Nat) : Option State := do
  let length := s.text.length + 1
  let place ← word? (s.place + n)
  let code ← word? (s.code + place / length)
  if length ≤ maxLength ∧ code.isValidChar then
    let place := place % length
    let delta := n / s.damp
    return { text := s.text.take place ++ Char.ofNat code :: s.text.drop place
             place := place + 1, code, damp := 2
             bias := biasFrom (delta + delta / length) 0 }
  else none

/-- Reads one digit. -/
def push? (s : State) (c : Char) : Option State := do
  let d ← digit? c
  let part ← word? (d * s.weight)
  let n ← word? (s.number + part)
  if d < s.threshold then s.insert? n
  else
    let weight ← word? (s.weight * (36 - s.threshold))
    return { s with number := n, weight, step := s.step + 36 }

end State

/-- The identifier with the ASCII characters `ascii` and the insertions `digits`. -/
def decode? (ascii digits : List Char) : Option (List Char) := do
  if digits = [] ∨ maxLength < ascii.length then none
  else
    let s ← digits.foldlM State.push? { text := ascii }
    if s.step = 36 then some s.text else none

end MachImage.Mangling.Punycode
