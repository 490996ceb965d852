/-!
# The content of files

A file holds bytes, and most of them are text. Its content is the list of its characters, with a
gap for bytes that do not make one: one gap for as many bytes as could be the start of a
character, and one for every other byte. Everything that the file formats of this library
are built from (commas, quotes, line ends) is a character, so that a gap never hides one of them.
-/

namespace NextStop

/-- Characters, and gaps where the bytes are not text. -/
abbrev Content := List (Option Char)

namespace Content

/-- The content of a file that holds a text. -/
def ofString (s : String) : Content := s.toList.map some

/-- The text of a content without gaps. -/
def text? (c : Content) : Option String := (c.mapM id).map String.ofList

/-- The content as a text, with a replacement character for every gap. -/
def display (c : Content) : String := String.ofList (c.map (·.getD (Char.ofNat 0xFFFD)))

theorem text?_map_some (cs : List Char) : text? (cs.map some) = some (String.ofList cs) := by
  have h : (cs.map some).mapM id = some cs := by
    induction cs with
    | nil => rfl
    | cons c cs ih => simp [ih]
  simp [text?, h]

/-- A text is read back from its content. -/
theorem text?_ofString (s : String) : (ofString s).text? = some s := by
  simp [ofString, text?_map_some]

/-! ## Bytes

A character has one byte below 128, or a first byte that tells how many more follow, each of
those with six bits of it. It has to be written with as few bytes as possible. -/

/-- The number that continues in a number of bytes, `n` being what came before. -/
def continued? : Nat → Nat → List UInt8 → Option Nat
  | 0, n, _ => some n
  | _ + 1, _, [] => none
  | k + 1, n, b :: bytes =>
    if 0x80 ≤ b ∧ b < 0xC0 then continued? k (n * 64 + (b.toNat - 0x80)) bytes else none

/-- The character of several bytes, `count` of them after the first, whose number is at least
`least`. -/
def longChar? (least n count : Nat) (bytes : List UInt8) : Option (Char × Nat) :=
  (continued? count n bytes).bind fun n =>
    if least ≤ n ∧ n.isValidChar then some (Char.ofNat n, count) else none

/-- The character that starts with a byte, and how many of the bytes behind belong to it. -/
def char? (first : UInt8) (bytes : List UInt8) : Option (Char × Nat) :=
  let n := first.toNat
  if n < 0x80 then some (Char.ofNat n, 0)
  else if n < 0xC0 then none
  else if n < 0xE0 then longChar? 0x80 (n - 0xC0) 1 bytes
  else if n < 0xF0 then longChar? 0x800 (n - 0xE0) 2 bytes
  else if n < 0xF8 then longChar? 0x10000 (n - 0xF0) 3 bytes
  else none

/-- How many bytes after the first one of a broken character could be a part of it. The second
byte decides whether a character is written with as few bytes as possible, and whether it is one
at all. -/
def brokenLength (first : UInt8) : List UInt8 → Nat
  | [] => 0
  | second :: bytes =>
    let least := if first = 0xE0 then 0xA0 else if first = 0xF0 then 0x90 else 0x80
    let most := if first = 0xED then 0x9F else if first = 0xF4 then 0x8F else 0xBF
    if first < 0xE0 ∨ 0xF4 < first ∨ second < least ∨ most < second then 0
    else if 0xF0 ≤ first ∧ (continued? 1 0 bytes).isSome then 2
    else 1

/-- The content of a file, `before` being what came before its remaining bytes, the last
character first. -/
def ofBytesAfter (before : Content) : List UInt8 → Content
  | [] => before.reverse
  | b :: bytes =>
    match char? b bytes with
    | some (c, count) => ofBytesAfter (some c :: before) (bytes.drop count)
    | none => ofBytesAfter (none :: before) (bytes.drop (brokenLength b bytes))
termination_by bytes => bytes.length
decreasing_by all_goals (simp only [List.length_drop, List.length_cons]; omega)

/-- The content of bytes. -/
def ofBytes (bytes : List UInt8) : Content := ofBytesAfter [] bytes

end Content

end NextStop
