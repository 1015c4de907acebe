/-!
# White space

The characters with the Unicode property `White_Space`.
-/

namespace SqlPlan

/-- The code points of white space. -/
def blankCodes : List Nat :=
  [0x9, 0xa, 0xb, 0xc, 0xd, 0x20, 0x85, 0xa0, 0x1680, 0x2000, 0x2001, 0x2002, 0x2003, 0x2004, 0x2005, 0x2006, 0x2007,
    0x2008, 0x2009, 0x200a, 0x2028, 0x2029, 0x202f, 0x205f, 0x3000]

def isBlank (c : Char) : Bool := blankCodes.contains c.toNat

/-- A text without its leading white space. -/
def skipBlanks (cs : List Char) : List Char := cs.dropWhile isBlank

example : ∀ c : Char, c.isWhitespace → isBlank c := by
  intro c h
  simp only [Char.isWhitespace, Bool.or_eq_true, decide_eq_true_eq, or_assoc] at h
  rcases h with rfl | rfl | rfl | rfl <;> decide

end SqlPlan
