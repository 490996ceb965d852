/-!
# Times and spans

A time is an integer number of milliseconds since 1970-01-01T00:00:00Z, a span an integer number
of milliseconds. Both are kept in 64 bits. Configured limits are given in seconds without an upper
bound, so a time moved by a limit stops at the ends of the 64-bit range: `Time.later` and
`Time.sooner` never leave it. Plain sums and differences do not stop there but go on from the other
end, `Time.wrap`, so that they are exact only as far as they fit.
-/

namespace NextStop

namespace Time

/-- The last time of the 64-bit range. -/
def latest : Int := 9223372036854775807

/-- The first time of the 64-bit range. -/
def earliest : Int := -9223372036854775808

/-- A value fits into 64 bits. -/
def Fits (t : Int) : Prop := earliest ≤ t ∧ t ≤ latest
  deriving Decidable

/-- The time moved into the 64-bit range. -/
def saturate (t : Int) : Int := max earliest (min latest t)

/-- The time `d` after `t`, or the end of the range if that is past it. -/
def later (t d : Int) : Int := saturate (t + d)

/-- The time `d` before `t`, or the end of the range if that is past it. -/
def sooner (t d : Int) : Int := saturate (t - d)

/-- The number of times in the 64-bit range. -/
def count : Nat := 18446744073709551616

/-- What 64 bits keep of a value: it is moved into the range by multiples of its size. -/
def wrap (t : Int) : Int := t.bmod count

theorem saturate_of_mem {t : Int} (lo : earliest ≤ t) (hi : t ≤ latest) : saturate t = t := by
  unfold saturate; omega

theorem saturate_le (t : Int) : saturate t ≤ latest := by
  unfold saturate earliest latest; omega

theorem le_saturate (t : Int) : earliest ≤ saturate t := by
  unfold saturate; omega

/-- What fits is kept as it is. -/
theorem wrap_of_fits {t : Int} (h : Fits t) : wrap t = t := by
  unfold Fits earliest latest at h
  unfold wrap count
  exact Int.bmod_eq_of_le_mul_two (by omega) (by omega)

end Time

namespace Span

/-- A number of seconds as a span, at most the largest one. -/
def ofSeconds (secs : Nat) : Int := min (1000 * (secs : Int)) Time.latest

/-- A number of days as a span. -/
def ofDays (days : Nat) : Int := (days : Int) * 24 * 3600 * 1000

theorem ofSeconds_nonneg (secs : Nat) : 0 ≤ ofSeconds secs := by
  unfold ofSeconds Time.latest; omega

end Span

end NextStop
