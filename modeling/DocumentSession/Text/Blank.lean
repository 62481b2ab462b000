set_option autoImplicit false

/-! # Blank characters

The property `White_Space` of Unicode. -/

namespace DocumentSession.Text

/-- The ranges of the property `White_Space`. -/
def blankRanges : List (Nat × Nat) :=
  [(0x9, 0xD), (0x20, 0x20), (0x85, 0x85), (0xA0, 0xA0), (0x1680, 0x1680), (0x2000, 0x200A),
   (0x2028, 0x2029), (0x202F, 0x202F), (0x205F, 0x205F), (0x3000, 0x3000)]

/-- Whether a character is blank. -/
def isBlank (c : Char) : Bool :=
  blankRanges.any (fun r => r.1 ≤ c.toNat ∧ c.toNat ≤ r.2)

end DocumentSession.Text
