import NextStop.Date
import NextStop.Text.Blank
import NextStop.Text.Number

/-!
# Dates as text

Dates are written as year, month and day with dashes between them. Years have at least four
digits, and a sign unless they have just four and are not negative. Reading is more tolerant: it
takes shorter numbers, and blanks around each of them.
-/

namespace NextStop

namespace Date

/-- A number with zeros in front up to a width. -/
def padded (width n : Nat) : String :=
  let digits := toString n
  "".pushn '0' (width - digits.length) ++ digits

/-- A year of a date. -/
def writeYear (year : Int) : String :=
  if 0 ≤ year ∧ year ≤ 9999 then padded 4 year.toNat
  else (if year < 0 then "-" else "+") ++ padded 4 year.natAbs

/-- A date as text. -/
def write (d : Date) : String :=
  writeYear d.year ++ "-" ++ padded 2 d.month ++ "-" ++ padded 2 d.day

/-- The first and the last year of dates that can be read. -/
def years : Number.Range := ⟨-262143, 262142⟩

/-- At most `max` digits, at least one, as a number, and what follows them. -/
def number? (max : Nat) (cs : List Char) : Option (Nat × List Char) :=
  let digits := (cs.take max).takeWhile Char.isDigit
  (Number.natural? 10 digits).map fun n => (n, cs.drop digits.length)

/-- A year after blanks. A year with a sign may have any number of digits, one without at most
four. -/
def readYear? (cs : List Char) : Option (Int × List Char) :=
  match dropBlanks cs with
  | '-' :: cs => (number? cs.length cs).map fun (n, rest) => (-(n : Int), rest)
  | '+' :: cs => (number? cs.length cs).map fun (n, rest) => ((n : Int), rest)
  | cs => (number? 4 cs).map fun (n, rest) => ((n : Int), rest)

/-- A dash after blanks, and then a number of at most two digits, also after blanks. -/
def readPart? (cs : List Char) : Option (Nat × List Char) :=
  match dropBlanks cs with
  | '-' :: cs => number? 2 (dropBlanks cs)
  | _ => none

/-- A date from a text. -/
def read? (cs : List Char) : Option Date :=
  (readYear? cs).bind fun (year, cs) =>
    (readPart? cs).bind fun (month, cs) =>
      (readPart? cs).bind fun (day, cs) =>
        if (dropBlanks cs).isEmpty then
          (years.checked? year).bind fun year => ofParts? year month day
        else none

end Date

end NextStop
