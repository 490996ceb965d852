/-!
# Marked text

Text for a terminal may hold control sequences, which set its look and do not show. Here are the
two looks that the library uses, and `Marked.plain`, which leaves out of a text all that would
not show: the control sequences, and the control characters that are not white space.

A sequence starts with the escape character. White space in the middle of a short sequence shows,
and so does the text behind it; the next control character is read as a part of the sequence
again.
-/

namespace NextStop

namespace Marked

/-- A text in bold. -/
def strong (s : String) : String := "\x1b[1m" ++ s ++ "\x1b[0m"

/-- A text in bold and underlined. -/
def title (s : String) : String := "\x1b[1m\x1b[4m" ++ s ++ "\x1b[0m"

/-! ## Sequences -/

/-- The kind of a sequence, as far as it has been read. -/
inductive Sequence where
  /-- Only the escape character so far. -/
  | opened
  /-- Signs, up to a letter or a digit. -/
  | signs
  /-- Parameters, up to a letter. -/
  | parameters
  /-- A command to the terminal's surroundings, up to a bell. -/
  | command
  /-- A text for a device, up to its terminator. -/
  | device
  /-- The start of what tells the device about its text. -/
  | deviceOpened
  | deviceParameters
  | deviceSigns
  /-- What tells the device about its text is in disorder, and the text has no end of its own. -/
  | deviceBroken
  deriving DecidableEq

/-- Where in a text the reader is. -/
inductive Mode where
  | text
  | inside (s : Sequence)
  /-- Behind white space that interrupted a sequence. -/
  | paused (s : Sequence)
  deriving DecidableEq

/-- Whether a character shows, be it as white space. -/
def isShown (c : Char) : Bool :=
  (' ' ≤ c && c != '\x7f') || c == '\t' || c == '\n' || c == '\x0c' || c == '\r'

/-- Whether a character ends a text for a device, as one of its bytes does. -/
def isTerminator (c : Char) : Bool := (String.singleton c).toUTF8.toList.contains 0x9c

/-- What a character that does not start or break off a sequence makes of one. -/
def Sequence.next (s : Sequence) (c : Char) : Mode :=
  match s with
  | .command => if c = '\x07' then .text else .inside s
  | .device => if isTerminator c then .text else .inside s
  | .opened =>
    if c < ' ' then if isShown c then .paused s else .inside s
    else if '\x7f' ≤ c then .inside s
    else if c < '0' then .inside .signs
    else if c = '[' then .inside .parameters
    else if c = ']' then .inside .command
    else if c = 'P' then .inside .deviceOpened
    else if c = 'X' ∨ c = '^' ∨ c = '_' then .inside .device
    else .text
  | .signs =>
    if c < ' ' ∧ isShown c then .paused s
    else if '0' ≤ c ∧ c < '\x7f' then .text
    else .inside s
  | .parameters =>
    if c < ' ' ∧ isShown c then .paused s
    else if '@' ≤ c ∧ c < '\x7f' then .text
    else .inside s
  | .deviceOpened | .deviceParameters | .deviceSigns =>
    if c < ' ' ∨ '\x7f' ≤ c then .inside s
    else if '@' ≤ c then .inside .device
    else if c < '0' then .inside .deviceSigns
    else if s = .deviceSigns ∨ (s = .deviceParameters ∧ '<' ≤ c) then .inside .deviceBroken
    else .inside .deviceParameters
  | .deviceBroken => .inside s

/-- The mode after a character. The escape character starts a sequence anywhere, and two other
control characters break one off. -/
def Mode.next (m : Mode) (c : Char) : Mode :=
  if c = '\x1b' then .inside .opened
  else if c = '\x18' ∨ c = '\x1a' then .text
  else
    match m with
    | .text => .text
    | .paused s => if '\x7f' < c then .text else if isShown c then .paused s else s.next c
    | .inside s => s.next c

/-- Whether a character shows between two modes: all do that can, but not inside a sequence. -/
def shows (before after : Mode) (c : Char) : Bool :=
  match before, after with
  | .inside _, .paused _ => true
  | .inside _, _ => false
  | _, _ => isShown c

/-- The characters that show, `before` being those in front, the last one first. -/
def shownAfter (before : List Char) (m : Mode) : List Char → List Char
  | [] => before.reverse
  | c :: cs =>
    let after := m.next c
    shownAfter (if shows m after c then c :: before else before) after cs

/-- A text without all that does not show. -/
def plain (s : String) : String := String.ofList (shownAfter [] .text s.toList)

end Marked

end NextStop
