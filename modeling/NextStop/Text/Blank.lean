/-!
# Blank characters

The characters that count as white space, after the property of that name.
-/

namespace NextStop

/-- Whether a character is white space. -/
def isBlank (c : Char) : Bool :=
  let n := c.toNat
  (9 ≤ n && n ≤ 13) || n == 32 || n == 133 || n == 160 || n == 5760 ||
    (8192 ≤ n && n ≤ 8202) || n == 8232 || n == 8233 || n == 8239 || n == 8287 || n == 12288

/-- A text without the white space in front. -/
def dropBlanks (cs : List Char) : List Char := cs.dropWhile isBlank

end NextStop
