import DiagramEdit.Text.WhiteSpace

/-!
# Digits

Numbers written in ASCII digits, decimal or hexadecimal.
-/

namespace DiagramEdit.Text

/-- The value of a hexadecimal digit, in either letter case. -/
def digitValue? (character : Char) : Option Nat :=
  if '0' ≤ character ∧ character ≤ '9' then
    some (character.toNat - '0'.toNat)
  else if 'A' ≤ character ∧ character ≤ 'F' then
    some (character.toNat - 'A'.toNat + 10)
  else if 'a' ≤ character ∧ character ≤ 'f' then
    some (character.toNat - 'a'.toNat + 10)
  else
    none

def isHexDigit (character : Char) : Bool :=
  (digitValue? character).isSome

/-- The number that digits of a base write, most significant digit first. -/
def numberOf? (base : Nat) (digits : Text) : Option Nat :=
  digits.foldlM
    (fun value digit => (digitValue? digit).map (value * base + ·)) 0

end DiagramEdit.Text
