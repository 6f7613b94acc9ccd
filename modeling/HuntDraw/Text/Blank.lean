/-! Blank characters and the trimming of text. -/

namespace HuntDraw.Text

def inRanges (ranges : List (Nat × Nat)) (c : Char) : Bool :=
  ranges.any fun r => r.1 ≤ c.toNat && c.toNat ≤ r.2

/-- The blank characters of Unicode. -/
def blankRanges : List (Nat × Nat) :=
  [(9, 13), (32, 32), (133, 133), (160, 160), (5760, 5760), (8192, 8202), (8232, 8233), (8239, 8239),
   (8287, 8287), (12288, 12288)]

/-- Whitespace as validated numbers are trimmed of it. -/
def isWhite (c : Char) : Bool := inRanges blankRanges c

/-- Blanks in documents: whitespace and the four separators of the control characters. -/
def isBlank (c : Char) : Bool := isWhite c || (28 ≤ c.toNat && c.toNat ≤ 31)

/-- Drops the characters with a property from both ends. -/
def trimChars (p : Char → Bool) (cs : List Char) : List Char :=
  ((cs.dropWhile p).reverse.dropWhile p).reverse

/-- The text without blanks at its ends. -/
def strip (s : String) : String := String.ofList (trimChars isBlank s.toList)

end HuntDraw.Text
