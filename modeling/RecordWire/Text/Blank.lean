/-!
# Blank characters

The text format separates tokens by the characters of the Unicode property `White_Space`:
twenty-five code points, from the ASCII tab to the ideographic space. Core's
`Char.isWhitespace` knows only some of them; every character it accepts is blank here too.
-/

namespace RecordWire

/-- The ranges of code points with the Unicode property `White_Space`, inclusive. -/
def blankRanges : List (Nat × Nat) :=
  [(0x09, 0x0D), (0x20, 0x20), (0x85, 0x85), (0xA0, 0xA0), (0x1680, 0x1680),
   (0x2000, 0x200A), (0x2028, 0x2029), (0x202F, 0x202F), (0x205F, 0x205F), (0x3000, 0x3000)]

/-- Whether `c` is a blank: a Unicode `White_Space` character. -/
def isBlank (c : Char) : Bool :=
  blankRanges.any fun (lo, hi) => lo ≤ c.toNat && c.toNat ≤ hi

/-- Every character that core calls whitespace is blank. -/
theorem isBlank_of_isWhitespace (c : Char) (h : c.isWhitespace = true) : isBlank c = true := by
  simp only [Char.isWhitespace, Bool.or_eq_true, decide_eq_true_eq] at h
  simp only [isBlank, blankRanges, List.any_cons, List.any_nil]
  rcases h with ((h | h) | h) | h <;> simp [h]

/-- The code points listed in `blankRanges`, twenty-five of them. -/
example : (blankRanges.map fun (lo, hi) => hi + 1 - lo).sum = 25 := by decide

/-- Drops leading blanks. -/
def dropBlanks (cs : List Char) : List Char := cs.dropWhile isBlank

/-- Whether a text is blank throughout. -/
def allBlank (cs : List Char) : Bool := cs.all isBlank

end RecordWire
