/-!
# Blank characters

The characters that count as blank are those with the Unicode property `White_Space`. Trimming
drops them at the ends of a text; words are the longest runs without them.
-/
namespace SimWorkbench.Text

/-- Ranges of the characters with the property `White_Space`, in order. -/
def blankRanges : List (Nat × Nat) :=
  [(0x09, 0x0D), (0x20, 0x20), (0x85, 0x85), (0xA0, 0xA0), (0x1680, 0x1680), (0x2000, 0x200A),
   (0x2028, 0x2029), (0x202F, 0x202F), (0x205F, 0x205F), (0x3000, 0x3000)]

/-- Whether a character has the property `White_Space`. -/
def isBlank (c : Char) : Bool := blankRanges.any fun r => r.1 ≤ c.toNat && c.toNat ≤ r.2

/-- Drops the blank characters at the front. -/
def trimStart (text : List Char) : List Char := text.dropWhile isBlank

/-- Drops the blank characters at the end. -/
def trimEnd (text : List Char) : List Char := (text.reverse.dropWhile isBlank).reverse

/-- Drops the blank characters at both ends. -/
def trim (text : List Char) : List Char := trimEnd (trimStart text)

/-- Whether nothing but blank characters occurs. -/
def isAllBlank (text : List Char) : Bool := text.all isBlank

/-- The longest runs without a blank character, in order. -/
def words (text : List Char) : List (List Char) := (text.splitOnP isBlank).filter (· ≠ [])

end SimWorkbench.Text
